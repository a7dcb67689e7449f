import ReadThrough.Proofs.Cache.Deposits
import ReadThrough.Proofs.Cache.Rewriting

/-!
# The identity of entries

A value that is stored by the name it was fetched under replaces the entry that
the name leads to: the entry is `Renewed`.  It keeps its key and its aliases, all
names lead where they did, and no other place is touched.  A name that leads to
nothing becomes the key of an entry that is `Introduced`, without aliases.

The name and the key are routed one after the other.  They go to the same shard
or the store breaks off, because an alias that is bound is registered on the
shard it is bound in.
-/

namespace ReadThrough

variable {Value : Type}

namespace Shard

variable {shard : Shard Value}

/-- The aliases of a key are what a write that asks for them binds. -/
theorem boundAliases_aliases (coherent : shard.Coherent) (key : String) :
    boundAliases key (shard.aliases key) = shard.aliases key := by
  have sorted : (shard.aliases key).Pairwise (· < ·) ∧
      key ∉ shard.aliases key := by
    rw [aliases]
    cases listed : shard.aliasesOfKey[key]? with
    | none => exact ⟨.nil, List.not_mem_nil⟩
    | some list => exact (coherent.listed listed).2.2
  have same : (boundAliases key (shard.aliases key)).Perm
      (shard.aliases key) := by
    refine (List.perm_ext_iff_of_nodup ?_ ?_).mpr fun name => ?_
    · exact (boundAliases_sorted _ _).imp fun less => String.ne_of_lt less
    · exact sorted.1.imp fun less => String.ne_of_lt less
    · rw [mem_boundAliases]
      refine and_iff_left_of_imp fun member => ?_
      rintro rfl
      exact sorted.2 member
  refine same.eq_of_pairwise ?_ (boundAliases_sorted _ _) sorted.1
  intro first second _ _ less greater
  exact absurd (String.lt_trans less greater) (String.lt_irrefl first)

theorem alike_padded (refresh : Option RefreshWindow) :
    shard.Alike (shard.padded refresh) := by
  rw [padded]
  cases refresh with
  | none => exact .refl shard
  | some window => exact alike_takePadding shard _

end Shard

namespace Cache

variable {settings : Settings} {cache before after : Cache Value}
  {draft : Draft Value} {now : Instant} {name : String}

/-! ## Fresh entries -/

/-- An entry that has just been written is not due. -/
theorem IsFresh.early {entry : Entry Value}
    (fresh : IsFresh settings draft now entry) :
    ∀ instant ∈ entry.refreshAt, now ≤ instant := by
  intro instant set
  cases refresh : settings.refresh with
  | none =>
      rw [fresh.unscheduled refresh] at set
      cases set
  | some window =>
      obtain ⟨padding, _, scheduled⟩ := fresh.scheduled window refresh
      rw [scheduled] at set
      cases set
      exact le_deadline now _

/-- At the reading at which it was written, an entry is read under every name
that leads to it. -/
theorem ends_get?_of_fresh
    (coherent : cache.Coherent) {place : Nat × String} {entry : Entry Value}
    {aliases : List String} (fresh : IsFresh settings draft now entry)
    (holds : cache.held place = some (entry, aliases))
    (leads : cache.place name = place)
    {clock : Clock} (reading : clock.read.1 = .ok now) :
    Ends (get? settings name) (cache.withClock clock)
      (fun found _ => found = draft.value) (fun _ _ => False) := by
  obtain ⟨shard, seat⟩ := coherent.seat name
  rw [← leads, place_of_seat seat, held_of_seat seat] at holds
  obtain ⟨stored, there, same⟩ := Option.map_eq_some_iff.mp holds
  cases same
  have live : now ≤ entry.expiresAt := by
    rw [fresh.expiresAt]
    exact le_deadline now _
  have glanced := Shard.glance_of_resolve there live fresh.early
  have seatThere : (cache.withClock clock).shards[
      (cache.withClock clock).route name]? = some shard := seat
  rw [get?, ends_bind]
  refine (ends_lookup_of_glance seatThere reading glanced).weaken ?_
    fun _ _ => id
  rintro found next rfl
  rw [ends_pure, ← fresh.value, Entry.lookup]
  cases entry.value with
  | some value => rfl
  | none => rfl

/-! ## The size of a rewritten cache -/

theorem Rewrites.size_eq
    (rewrites : Rewrites settings draft now before after)
    (coherent : before.Coherent) {shard : Shard Value}
    (seat : before.shards[before.route draft.key]? = some shard) :
    after.size +
        (shard.evictees settings.evictionPercentage draft.key).length =
      before.size + if draft.key ∈ shard.entries then 0 else 1 := by
  -- But for the routes, one shard has been put in its place.
  let claimed : Cache Value := { before with routes := after.routes }
  have shards : claimed.shards = before.shards := rfl
  have reseats : Reseats (before.route draft.key)
      (shard.rewritten settings draft now) claimed after :=
    ⟨rfl, rewrites.size, rewrites.seat shard seat,
      fun apart => rewrites.others _ apart⟩
  exact size_of_stored coherent seat shards
    (Shard.alike_padded settings.refresh) reseats rfl

/-! ## Storing by name -/

section Storing

variable [Keyed Value] {value : Value}

/-- A value can only be stored by name if the key that the name leads to is
routed where the name is. -/
theorem atHome_of_agreed
    (coherent : cache.Coherent)
    (agreed : ¬ cache.Conflicts
      ((Writing.fetched .byName name value).draft cache)) :
    cache.AtHome name := by
  obtain ⟨shard, seat⟩ := coherent.seat name
  rw [draft_byName coherent seat] at agreed
  rw [AtHome, place_of_seat seat]
  by_cases own : shard.primary name = name
  · rw [own]
  · obtain ⟨_, bound⟩ := Shard.bound_of_primary rfl (Ne.symm own)
    have listed := (coherent.shards seat).inverse.mp bound
    refine Decidable.by_contra fun elsewhere => agreed ?_
    exact ⟨name, listed, Ne.symm own, .inl ⟨_, coherent.routed seat bound,
      Ne.symm elsewhere⟩⟩

/-- To store a value by name is to write it under the key and the aliases that
the name leads to. -/
theorem ends_storeFetched_rewrites
    (coherent : before.Coherent)
    (expressible : ∀ window ∈ settings.refresh,
      window.earliest ≤ window.latest ∧ window.latest ≤ Duration.longest)
    (named : (Writing.fetched .byName name value).draft before = draft)
    (kept : ¬ before.Drops settings draft.key) :
    Ends (storeFetched settings .byName name value) before
      (fun _ after => ∃ now, Rewrites settings draft now before after ∧
        Written settings draft now before after ∧ after.Coherent ∧
          (¬ before.IsFullFor draft.key → after.counters = before.counters))
      (fun fault _ => before.Conflicts draft ∨
        before.clock.read.1 = .error fault) := by
  -- Where the name is routed has been noted when the write begins.
  let noted := before.noted (.routed (before.route name))
  have coherentNoted : noted.Coherent := coherent.of_eq rfl rfl
  obtain ⟨shard, seat⟩ := coherent.seat draft.key
  have seatNoted : noted.shards[noted.route draft.key]? = some shard := seat
  have stays := coherentNoted.ends_of_respects
    (respects_write_runs settings draft.key draft.value draft.aliases)
  rw [storeFetched, ends_discard, ends_storeByName coherent]
  rw [show (Writing.fetched .byName name value).draft noted = draft from named]
  refine (((ends_writeDraft_rewrites coherentNoted expressible kept).and
    (ends_writeDraft_written coherentNoted draft kept)).and
      ((ends_write_counters seatNoted).and stays)).weaken ?_ fun _ _ ended =>
        ended.1.1
  rintro evicted after ⟨⟨⟨full, now, rewrites⟩, instant, written⟩, counted,
    coherentAfter⟩
  have same : instant = now := by
    have shown := rewrites.reading.symm.trans written.reading
    exact (Except.ok.inj (congrArg Prod.fst shown)).symm
  subst same
  refine ⟨instant, ?_, ?_, coherentAfter, fun room => ?_⟩
  · exact ⟨rewrites.agreed, rewrites.reading, rewrites.routes, rewrites.size,
      rewrites.seat, rewrites.others⟩
  · exact ⟨written.reading, written.own, written.others, written.fresh,
      written.routes, written.key, written.asked, written.spared,
      written.binds⟩
  · rw [counted, if_neg fun evicts => room (full.mp evicts)]
    rfl

/-- An entry has been replaced by a value, and everything else is what it
was. -/
structure Renewed
    (settings : Settings) (value : Value) (place : Nat × String)
    (aliases : List String) (now : Instant) (before after : Cache Value) :
    Prop where
  reading : before.clock.read = (.ok now, after.clock)
  key : before.place place.2 = place
  /-- The key holds the value, under the aliases that it had. -/
  held : ∃ entry,
    IsFresh settings ⟨place.2, some value, aliases⟩ now entry ∧
      after.held place = some (entry, aliases)
  others : ∀ other, other ≠ place → after.held other = before.held other
  /-- All names lead where they did. -/
  places : ∀ name, after.place name = before.place name
  /-- At the same reading, whatever leads to the key reads the value. -/
  reads : ∀ name, before.place name = place →
    ∀ clock : Clock, clock.read.1 = .ok now →
      Ends (get? settings name) (after.withClock clock)
        (fun found _ => found = some value) (fun _ _ => False)
  size : after.size = before.size
  counters : after.counters = before.counters

/-- A name has become the key of a new entry, and nothing else has changed but
what had to make room. -/
structure Introduced
    (settings : Settings) (name : String) (value : Value) (now : Instant)
    (before after : Cache Value) : Prop where
  reading : before.clock.read = (.ok now, after.clock)
  held : ∃ entry, IsFresh settings ⟨name, some value, []⟩ now entry ∧
    after.held (before.route name, name) = some (entry, [])
  others : ∀ place, place ≠ (before.route name, name) →
    after.held place =
      if before.Evicts settings name place then none else before.held place
  reads : ∀ clock : Clock, clock.read.1 = .ok now →
    Ends (get? settings name) (after.withClock clock)
      (fun found _ => found = some value) (fun _ _ => False)
  size : after.size + (before.evictees settings name).length =
    before.size + 1

/-- A store by name only returns if the key is routed where the name is. -/
theorem ends_storeFetched_atHome
    (coherent : before.Coherent)
    (expressible : ∀ window ∈ settings.refresh,
      window.earliest ≤ window.latest ∧ window.latest ≤ Duration.longest)
    (name : String) (value : Value) :
    Ends (storeFetched settings .byName name value) before
      (fun _ _ => before.AtHome name) (fun _ _ => True) := by
  have coherentNoted :
      (before.noted (.routed (before.route name))).Coherent :=
    coherent.of_eq rfl rfl
  rw [storeFetched, ends_discard, ends_storeByName coherent]
  refine (ends_writeDraft_unstored coherentNoted expressible _).weaken ?_
    fun _ _ _ => trivial
  intro evicted after unstored
  exact atHome_of_agreed coherent unstored.1

/-- A value that is stored by a name that leads to an entry renews it, unless
the key is routed elsewhere than the name or the clock cannot be read. -/
theorem ends_storeFetched_renews
    (coherent : before.Coherent)
    (expressible : ∀ window ∈ settings.refresh,
      window.earliest ≤ window.latest ∧ window.latest ≤ Duration.longest)
    {entry : Entry Value} {aliases : List String}
    (holds : before.held (before.place name) = some (entry, aliases)) :
    Ends (storeFetched settings .byName name value) before
      (fun _ after => ∃ now, Renewed settings value (before.place name)
        aliases now before after)
      (fun fault _ => ¬ before.AtHome name ∨
        before.clock.read.1 = .error fault) := by
  by_cases atHome : before.AtHome name
  case neg =>
    exact (ends_storeFetched_atHome coherent expressible name value).weaken
      (fun _ _ home => absurd home atHome) fun _ _ _ => .inl atHome
  obtain ⟨shard, seat⟩ := coherent.seat name
  have placed := place_of_seat seat
  have inner := coherent.shards seat
  rw [placed, held_of_seat seat] at holds
  obtain ⟨_, there, same⟩ := Option.map_eq_some_iff.mp holds
  cases same
  have stored := Shard.stored_of_found there
  have home : before.route (shard.primary name) = before.route name := by
    rw [AtHome, placed] at atHome
    exact atHome
  have seatKey : before.shards[before.route (shard.primary name)]? =
      some shard := home ▸ seat
  have room : ¬ shard.isFullFor (shard.primary name) := fun full =>
    (Shard.isFullFor_iff.mp full).1 stored
  have unevicted : before.evictees settings (shard.primary name) = [] := by
    rw [evictees_of_seat seatKey, Shard.evictees, if_neg room]
  have kept : ¬ before.Drops settings (shard.primary name) := fun drops =>
    room ((drops_iff_of_seat seatKey).mp drops).1
  have named := draft_byName coherent seat value
  refine (ends_storeFetched_rewrites coherent expressible named kept).weaken
    ?_ ?_
  · rintro _ after ⟨now, rewrites, written, coherentAfter, counted⟩
    have made := Deposit.made_of_value coherent atHome (named ▸ written)
      (named ▸ unevicted)
    have places : ∀ other, after.place other = before.place other :=
      fun other => (made.places other).trans
        (if_neg fun missing => Option.some_ne_none value missing.1)
    have held := rewrites.held coherent seatKey
    dsimp only at held
    rw [home, Shard.boundAliases_aliases inner, ← placed] at held
    have fresh := isFresh_freshEntry settings
      ⟨shard.primary name, some value, shard.aliases (shard.primary name)⟩
      now shard
    have own := (held (before.place name)).trans (if_pos rfl)
    refine ⟨now, rewrites.reading, ?_, ⟨_, placed ▸ fresh, own⟩,
      fun other apart => ?_, places, fun other leads clock reading => ?_, ?_,
      ?_⟩
    · rw [placed, ← home]
      exact (place_of_led coherent (placed.trans (home ▸ rfl))).trans
        (placed.trans (home ▸ rfl))
    · rw [held, if_neg apart, if_neg fun evicted =>
        List.not_mem_nil (unevicted ▸ evicted.2)]
    · exact ends_get?_of_fresh coherentAfter fresh own
        ((places other).trans leads) reading
    · have sizes := rewrites.size_eq coherent seatKey
      dsimp only at sizes
      rwa [Shard.evictees, if_neg room, if_pos stored] at sizes
    · exact counted fun full => room ((isFullFor_iff_of_seat seatKey).mp full)
  · rintro fault next (conflicts | unread)
    · exact absurd (named ▸ conflicts) (atHome.not_conflicts coherent value)
    · exact .inr unread

/-- A value that is stored by a name that leads to nothing is introduced under
the name, unless it is dropped or the clock cannot be read. -/
theorem ends_storeFetched_introduces
    (coherent : before.Coherent)
    (expressible : ∀ window ∈ settings.refresh,
      window.earliest ≤ window.latest ∧ window.latest ≤ Duration.longest)
    (nothing : before.held (before.place name) = none)
    (kept : ¬ before.Drops settings name) :
    Ends (storeFetched settings .byName name value) before
      (fun _ after => ∃ now,
        Introduced settings name value now before after)
      (fun fault _ => before.clock.read.1 = .error fault) := by
  obtain ⟨shard, seat⟩ := coherent.seat name
  have inner := coherent.shards seat
  rw [place_of_seat seat, held_of_seat seat, Shard.held_eq_none_iff]
    at nothing
  have itself := Shard.primary_of_nothing inner nothing
  rw [itself] at nothing
  have bare : shard.aliases name = [] := by
    rw [Shard.aliases]
    cases listed : shard.aliasesOfKey[name]? with
    | none => rfl
    | some list => exact absurd (inner.listed listed).1 nothing
  have named := draft_byName coherent seat value
  rw [itself, bare] at named
  refine (ends_storeFetched_rewrites coherent expressible named kept).weaken
    ?_ ?_
  · rintro _ after ⟨now, rewrites, written, coherentAfter, counted⟩
    have held := rewrites.held coherent seat
    have fresh := isFresh_freshEntry settings ⟨name, some value, []⟩ now
      shard
    have own := (held (before.route name, name)).trans (if_pos rfl)
    refine ⟨now, rewrites.reading, ⟨_, fresh, own⟩, fun place apart => ?_,
      fun clock reading => ?_, ?_⟩
    · exact (held place).trans (if_neg apart)
    · exact ends_get?_of_fresh coherentAfter fresh own written.key reading
    · have sizes := rewrites.size_eq coherent seat
      rwa [if_neg nothing, ← evictees_of_seat seat] at sizes
  · rintro fault next (⟨_, impossible, _⟩ | unread)
    · cases impossible
    · exact unread

end Storing

end Cache

end ReadThrough
