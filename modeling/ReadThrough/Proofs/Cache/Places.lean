import ReadThrough.Proofs.Cache.Attempts
import ReadThrough.Proofs.Cache.RoundTrip

/-!
# Where names lead

Every name has a place: a shard, and the key that the name stands for there.
What a reader finds under a name is what its place shows.  The names of one
entry have the same place.

A write that stores its entry is `Written`.  Its own place shows what was
written, the places that had to make room show nothing, and every name leads
where it did, but for the aliases that the key has now and those that it had
before.  A deletion leaves a cache `Deleted`: the place of the deleted name shows
nothing, and its aliases stand for themselves again.
-/

namespace ReadThrough

open Std (ExtTreeMap)

namespace Shard

variable {Value : Type} {shard other : Shard Value} {entry : Entry Value}
  {key name : String} {keys aliases : List String}

/-! ## What a name stands for -/

theorem primary_of_stored (stored : name ∈ shard.entries) :
    shard.primary name = name :=
  if_pos stored

theorem primary_of_free (free : name ∉ shard.entries) :
    shard.primary name = (shard.keyOfAlias[name]?).getD name :=
  if_neg free

/-- A name that stands for another one is one of its aliases. -/
theorem bound_of_primary
    (leads : shard.primary name = key) (apart : name ≠ key) :
    name ∉ shard.entries ∧ shard.keyOfAlias[name]? = some key := by
  have free : name ∉ shard.entries := fun stored =>
    apart ((primary_of_stored stored).symm.trans leads)
  rw [primary_of_free free] at leads
  refine ⟨free, ?_⟩
  cases bound : shard.keyOfAlias[name]? with
  | none =>
      rw [bound] at leads
      exact absurd leads apart
  | some owner =>
      rw [bound] at leads
      exact congrArg some leads

theorem Alike.primary (alike : shard.Alike other) (name : String) :
    other.primary name = shard.primary name := by
  simp only [Shard.primary, alike.mem_entries, alike.keyOfAlias]

/-- The marks of refreshing do not show. -/
theorem shown_of_settled
    (same : other.entries[key]?.map Entry.settled =
      shard.entries[key]?.map Entry.settled) (instant : Instant) :
    (other.entries[key]?).bind (·.shown instant) =
      (shard.entries[key]?).bind (·.shown instant) := by
  have settledOnly : ∀ found : Option (Entry Value),
      found.bind (·.shown instant) =
        (found.map Entry.settled).bind (·.shown instant) := by
    intro found
    cases found with
    | none => rfl
    | some stored => rfl
  rw [settledOnly, same, ← settledOnly]

/-- Shards that store the same show the same under every key. -/
theorem Alike.shown (alike : shard.Alike other) (key : String)
    (instant : Instant) :
    (other.entries[key]?).bind (·.shown instant) =
      (shard.entries[key]?).bind (·.shown instant) :=
  shown_of_settled (alike.entries key) instant

/-- Whoever leads to nothing stands for itself. -/
theorem primary_of_nothing
    (coherent : shard.Coherent)
    (nothing : shard.primary name ∉ shard.entries) :
    shard.primary name = name := by
  apply Decidable.by_contra
  intro apart
  obtain ⟨_, bound⟩ := bound_of_primary rfl (Ne.symm apart)
  exact nothing (coherent.owner_stored bound)

/-- The key of an entry is none of its aliases. -/
theorem keyOfAlias_self_ne (coherent : shard.Coherent) (key : String) :
    shard.keyOfAlias[key]? ≠ some key := by
  intro bound
  obtain ⟨list, found, member⟩ :=
    mem_aliases_iff.mp (coherent.inverse.mp bound)
  exact (coherent.listed found).2.2.2 member

/-! ## Changes of a shard -/

/-- A removed key gives its aliases back to themselves. -/
theorem primary_erase_of_ne
    (coherent : shard.Coherent) (apart : name ≠ key) :
    (shard.erase key).primary name =
      if shard.primary name = key then name else shard.primary name := by
  have kept : name ∈ (shard.erase key).entries ↔ name ∈ shard.entries := by
    simp [Ne.symm apart]
  by_cases stored : name ∈ shard.entries
  · rw [primary_of_stored (kept.mpr stored), primary_of_stored stored,
      if_neg apart]
  · rw [primary_of_free ((not_congr kept).mpr stored), primary_of_free stored,
      getElem?_keyOfAlias_erase coherent]
    cases shard.keyOfAlias[name]? with
    | none => simp
    | some owner =>
        by_cases same : owner = key
        · simp [same]
        · simp [same]

/-- A removed key can still be an alias of another one. -/
theorem primary_erase_self (coherent : shard.Coherent) (key : String) :
    (shard.erase key).primary key = (shard.keyOfAlias[key]?).getD key := by
  have gone : key ∉ (shard.erase key).entries := by simp
  rw [primary_of_free gone, getElem?_keyOfAlias_erase coherent,
    if_neg (keyOfAlias_self_ne coherent key)]

/-- Whoever stands for a key that stays goes on to do so. -/
theorem primary_eraseAll_of_kept
    (coherent : shard.Coherent) (kept : shard.primary name ∉ keys) :
    (shard.eraseAll keys).primary name = shard.primary name := by
  by_cases stored : name ∈ shard.entries
  · rw [primary_of_stored stored] at kept ⊢
    exact primary_of_stored (mem_entries_eraseAll.mpr ⟨stored, kept⟩)
  · have free : name ∉ (shard.eraseAll keys).entries := fun there =>
      stored (mem_entries_eraseAll.mp there).1
    rw [primary_of_free stored] at kept ⊢
    rw [primary_of_free free]
    cases bound : shard.keyOfAlias[name]? with
    | some owner =>
        rw [bound] at kept
        rw [(keyOfAlias_eraseAll_eq_some_iff coherent keys name owner).mpr
          ⟨bound, kept⟩]
    | none =>
        cases later : (shard.eraseAll keys).keyOfAlias[name]? with
        | none => rfl
        | some owner => cases bound.symm.trans (keyOfAlias_of_eraseAll later)

/-- The aliases that a write asks for stand for its key unless they are stored
themselves, and those that the key had before stand for themselves. -/
theorem primary_upsert (coherent : shard.Coherent) (name : String) :
    (shard.upsert entry aliases).primary name =
      if name = entry.key ∨ name ∈ aliases ∧ name ∉ shard.entries then
        entry.key
      else if shard.primary name = entry.key then name
      else shard.primary name := by
  by_cases own : name = entry.key
  · have stored : name ∈ (shard.upsert entry aliases).entries := by
      simp [own]
    rw [primary_of_stored stored, if_pos (Or.inl own), own]
  · have kept : name ∈ (shard.upsert entry aliases).entries ↔
        name ∈ shard.entries := by
      simp [Ne.symm own]
    by_cases stored : name ∈ shard.entries
    · rw [primary_of_stored (kept.mpr stored), primary_of_stored stored]
      simp [own, stored]
    · rw [primary_of_free ((not_congr kept).mpr stored), primary_of_free stored,
        getElem?_keyOfAlias_upsert coherent]
      by_cases asked : name ∈ aliases
      · simp [own, stored, asked]
      · cases shard.keyOfAlias[name]? with
        | none => simp [own, asked]
        | some owner =>
            by_cases same : owner = entry.key
            · simp [own, asked, same]
            · simp [own, asked, same]

end Shard

namespace Cache

variable {Value : Type}

/-! ## Places -/

/-- The shard that a name is routed to and the key that it stands for there. -/
def place (cache : Cache Value) (name : String) : Nat × String :=
  (cache.route name,
    ((cache.shards[cache.route name]?).map (·.primary name)).getD name)

/-- The value or missing record that a place shows at an instant. -/
def shown (cache : Cache Value) (place : Nat × String) (instant : Instant) :
    Option (Option Value) :=
  (cache.shards[place.1]?).bind fun shard =>
    (shard.entries[place.2]?).bind (·.shown instant)

/-- What a look at a name finds live, if nobody is to be elected: what its place
shows at one reading of the clock.  Where nothing is stored the clock is not
read. -/
def glimpse (cache : Cache Value) (name : String) :
    Except Fault (Option (Option Value)) :=
  if cache.Stores (cache.place name).1 (cache.place name).2 then
    cache.clock.read.1.map (cache.shown (cache.place name))
  else
    .ok none

/-- The key that a name is bound to as an alias in the shard at an index. -/
def bound? (cache : Cache Value) (index : Nat) (name : String) :
    Option String :=
  (cache.shards[index]?).bind (·.keyOfAlias[name]?)

/-- A lookup of a name returns, and this is what it finds. -/
def Reads
    (settings : Settings) (cache : Cache Value) (name : String)
    (content : Option (Option Value)) : Prop :=
  Ends (lookup settings name) cache (fun found _ => found.content = content)
    (fun _ _ => False)

/-- A write of a key at a shard has to evict the entry at a place. -/
def Evicts
    (settings : Settings) (cache : Cache Value) (key : String)
    (place : Nat × String) : Prop :=
  place.1 = cache.route key ∧ place.2 ∈ cache.evictees settings key

instance (settings : Settings) (cache : Cache Value) (key : String)
    (place : Nat × String) : Decidable (cache.Evicts settings key place) :=
  inferInstanceAs (Decidable (_ ∧ _))

section Places

variable {settings : Settings} {cache before after : Cache Value}
  {name : String} {shard other : Shard Value} {index : Nat}

theorem place_of_seat (seat : cache.shards[cache.route name]? = some shard) :
    cache.place name = (cache.route name, shard.primary name) := by
  rw [place, seat, Option.map_some, Option.getD_some]

theorem shown_of_seat
    (seat : cache.shards[index]? = some shard) (key : String)
    (instant : Instant) :
    cache.shown (index, key) instant =
      (shard.entries[key]?).bind (·.shown instant) := by
  rw [shown, seat, Option.bind_some]

theorem bound?_of_seat
    (seat : cache.shards[index]? = some shard) (name : String) :
    cache.bound? index name = shard.keyOfAlias[name]? := by
  rw [bound?, seat, Option.bind_some]

/-- A place shows nothing that is not stored there. -/
theorem shown_of_not_stores {key : String}
    (vacant : ¬ cache.Stores index key) (instant : Instant) :
    cache.shown (index, key) instant = none := by
  rw [shown]
  cases seat : cache.shards[index]? with
  | none => rfl
  | some shard =>
      rw [stores_iff_of_seat seat] at vacant
      rw [Option.bind_some, ExtTreeMap.getElem?_eq_none vacant]
      rfl

variable (settings) in
/-- A lookup finds what the place of its name shows, at the reading of the clock
that decides it. -/
theorem reads_place
    (coherent : cache.Coherent) {now : Instant}
    (decided : cache.deciding name = .ok now) :
    Reads settings cache name (cache.shown (cache.place name) now) := by
  obtain ⟨shard, seat⟩ := coherent.seat name
  rw [place_of_seat seat, shown_of_seat seat]
  exact ends_lookup_of_deciding seat decided

/-- The entry that a name leads to is stored at its place. -/
theorem glimpse_of_seat
    (seat : cache.shards[cache.route name]? = some shard) :
    cache.glimpse name =
      if (shard.resolve name).isSome then
        cache.clock.read.1.map (shard.seen name)
      else
        .ok none := by
  have stored : cache.Stores (cache.place name).1 (cache.place name).2 ↔
      (shard.resolve name).isSome = true := by
    rw [place_of_seat seat, stores_iff_of_seat seat, Shard.resolve,
      ExtTreeMap.mem_iff_isSome_getElem?]
  have shows : cache.shown (cache.place name) = shard.seen name := by
    funext now
    rw [place_of_seat seat, shown_of_seat seat]
    rfl
  simp only [glimpse, stored, shows]

/-- A look that takes no part in elections finds what is live under the name,
and breaks off only where the clock has to be read and cannot be. -/
theorem ends_peek (coherent : cache.Coherent) (name : String) :
    Ends (peek name) cache
      (fun found _ => cache.glimpse name = .ok found.content)
      (fun fault _ => cache.glimpse name = .error fault) := by
  obtain ⟨shard, seat⟩ := coherent.seat name
  have routedSeat : (cache.noted (.routed (cache.route name))).shards[
      cache.route name]? = some shard := seat
  rw [glimpse_of_seat seat, peek, ends_bind, ends_shardIndex_of_seat seat,
    ends_bind, ends_shardAt, routedSeat]
  dsimp only
  rw [ends_ite]
  by_cases leads : (shard.resolve name).isSome = true
  · simp only [if_pos leads, ends_bind, ends_readClock, ends_pure,
      Shard.content_peek]
    split
    next now clock read =>
      have reading : cache.clock.read = (.ok now, clock) := read
      rw [reading]
      rfl
    next fault clock read =>
      have reading : cache.clock.read = (.error fault, clock) := read
      rw [reading]
      rfl
  · simp only [if_neg leads, ends_pure, Lookup.content]

theorem glimpse_of_peek
    (coherent : cache.Coherent) {found : Lookup Value}
    (looked : result? (peek name) cache = some found) :
    cache.glimpse name = .ok found.content :=
  ends_of_run_ok (ends_peek coherent name) (run_of_result? looked)

theorem peek_of_glimpse
    (coherent : cache.Coherent) {content : Option (Option Value)}
    (live : cache.glimpse name = .ok content) :
    ∃ found, result? (peek name) cache = some found ∧
      found.content = content := by
  have glimpsed := ends_peek coherent name
  rw [Ends] at glimpsed
  rw [result?]
  cases run : (peek name).run cache with
  | ok found next =>
      rw [run] at glimpsed
      exact ⟨found, rfl, Except.ok.inj (glimpsed.symm.trans live)⟩
  | error fault next =>
      rw [run] at glimpsed
      cases glimpsed.symm.trans live

theorem peek_breaks_of_glimpse
    (coherent : cache.Coherent) {fault : Fault}
    (unread : cache.glimpse name = .error fault) :
    ∃ next, (peek name).run cache = .error fault next := by
  have glimpsed := ends_peek coherent name
  rw [Ends] at glimpsed
  cases run : (peek name).run cache with
  | ok found next =>
      rw [run] at glimpsed
      cases glimpsed.symm.trans unread
  | error met next =>
      rw [run] at glimpsed
      cases glimpsed.symm.trans unread
      exact ⟨next, rfl⟩

theorem Alike.place (alike : Alike before after) (name : String) :
    after.place name = before.place name := by
  unfold Cache.place
  rw [alike.route]
  cases seat : before.shards[before.route name]? with
  | some shard =>
      obtain ⟨later, laterSeat, similar⟩ := alike.shards seat
      rw [laterSeat, Option.map_some, Option.map_some, similar.primary]
  | none =>
      have vacant : after.shards[before.route name]? = none := by
        rw [Array.getElem?_eq_none_iff] at seat ⊢
        rwa [alike.size]
      rw [vacant]

theorem Alike.shown (alike : Alike before after) (place : Nat × String)
    (instant : Instant) :
    after.shown place instant = before.shown place instant := by
  cases seat : before.shards[place.1]? with
  | some shard =>
      obtain ⟨later, laterSeat, similar⟩ := alike.shards seat
      rw [Cache.shown, Cache.shown, laterSeat, seat, Option.bind_some,
        Option.bind_some, similar.shown]
  | none =>
      have vacant : after.shards[place.1]? = none := by
        rw [Array.getElem?_eq_none_iff] at seat ⊢
        rwa [alike.size]
      rw [Cache.shown, Cache.shown, vacant, seat]

theorem place_fst (cache : Cache Value) (name : String) :
    (cache.place name).1 = cache.route name := rfl

theorem shown_eq_of_shards
    {place : Nat × String}
    (same : after.shards[place.1]? = before.shards[place.1]?)
    (instant : Instant) :
    after.shown place instant = before.shown place instant := by
  rw [shown, shown, same]

theorem place_eq_of_shards
    (routed : after.route name = before.route name)
    (same : after.shards[before.route name]? =
      before.shards[before.route name]?) :
    after.place name = before.place name := by
  rw [place, place, routed, same]

theorem evictees_of_seat {key : String}
    (seat : cache.shards[cache.route key]? = some shard) :
    cache.evictees settings key =
      shard.evictees settings.evictionPercentage key := by
  rw [evictees, seat]
  rfl

end Places

/-! ## Writes -/

/-- A write has stored its entry at a reading of the clock. -/
structure Written
    (settings : Settings) (draft : Draft Value) (now : Instant)
    (before after : Cache Value) : Prop where
  reading : before.clock.read = (.ok now, after.clock)
  /-- What was written is shown until it expires. -/
  own : ∀ instant,
    after.shown (before.route draft.key, draft.key) instant =
      if deadline now settings.timeToLive < instant then none
      else some draft.value
  /-- Of the other places only those that had to make room have changed. -/
  others : ∀ place, place ≠ (before.route draft.key, draft.key) →
    ∀ instant, after.shown place instant =
      if before.Evicts settings draft.key place then none
      else before.shown place instant
  /-- What has just been written is not due: one reading decides a lookup. -/
  fresh : after.clock.read.1 = .ok now →
    ∀ name, after.place name = (before.route draft.key, draft.key) →
      after.deciding name = .ok now
  routes : ∀ name, after.route name =
    if name ∈ draft.names then before.route draft.key else before.route name
  key : after.place draft.key = (before.route draft.key, draft.key)
  /-- An alias leads to the key, unless an entry of its own stays. -/
  asked : ∀ name ∈ draft.aliases, name ≠ draft.key →
    after.place name =
      if before.Stores (before.route draft.key) name ∧
          ¬ before.Evicts settings draft.key (before.route draft.key, name)
      then (before.route draft.key, name)
      else (before.route draft.key, draft.key)
  /-- Other names stay where they were, and those that the key had before stand
  for themselves. -/
  spared : ∀ name, name ∉ draft.names →
    ¬ before.Evicts settings draft.key (before.place name) →
      after.place name =
        if before.place name = (before.route draft.key, draft.key) then
          (before.route draft.key, name)
        else before.place name
  /-- Names that were not asked for stay bound to keys that stay and that were
  not written. -/
  binds : ∀ name owner, name ∉ draft.aliases →
    (after.bound? (before.route draft.key) name = some owner ↔
      before.bound? (before.route draft.key) name = some owner ∧
        owner ≠ draft.key ∧
          ¬ before.Evicts settings draft.key (before.route draft.key, owner))

section Written

variable {settings : Settings} {draft : Draft Value} {now : Instant}
  {before claimed after : Cache Value} {shard roomy : Shard Value}
  {entry : Entry Value}

/-- Names that a write did not ask for are routed as before. -/
theorem route_of_claims_other
    (claims : Claims draft.key (before.route draft.key) shard draft.aliases
      (before.noted (.routed (before.route draft.key))) claimed)
    (reseats : Reseats (before.route draft.key) roomy claimed after)
    {name : String} (apart : name ∉ draft.names) :
    after.route name = before.route name := by
  have same : claimed.routes[name]? = before.routes[name]? := by
    rcases claims.routes name with kept | ⟨_, _, asked, _⟩
    · exact kept
    · exact absurd (List.mem_cons_of_mem _ asked) apart
  unfold route
  rw [reseats.routes, reseats.size, claims.shards, same]
  rfl

/-- A write that has stored its entry is written. -/
theorem written_of_stored
    (coherent : before.Coherent)
    (seat : before.shards[before.route draft.key]? = some shard)
    (claims : Claims draft.key (before.route draft.key) shard draft.aliases
      (before.noted (.routed (before.route draft.key))) claimed)
    (reading : before.clock.read = (.ok now, after.clock))
    (alike : (shard.cleared settings.evictionPercentage draft.key).Alike
      roomy)
    (keyed : entry.key = draft.key) (value : entry.value = draft.value)
    (expiresAt : entry.expiresAt = deadline now settings.timeToLive)
    (early : ∀ instant ∈ entry.refreshAt, now ≤ instant)
    (reseats : Reseats (before.route draft.key)
      (roomy.upsert entry draft.aliases) claimed after) :
    Written settings draft now before after := by
  have old := coherent.shards seat
  have roomyCoherent := alike.coherent
    (old.eraseAll (shard.evictees settings.evictionPercentage draft.key))
  have evictees : before.evictees settings draft.key =
      shard.evictees settings.evictionPercentage draft.key :=
    evictees_of_seat seat
  have elsewhere : ∀ index, index ≠ before.route draft.key →
      after.shards[index]? = before.shards[index]? := by
    intro index apart
    rw [reseats.others apart, claims.shards]
    rfl
  -- Where the shard of the key decides, the place follows from what the name
  -- stood for in the shard with room.
  have led : ∀ name, after.route name = before.route draft.key →
      after.place name = (before.route draft.key,
        if name = draft.key ∨
            name ∈ draft.aliases ∧ name ∉ roomy.entries then draft.key
        else if roomy.primary name = draft.key then name
        else roomy.primary name) := by
    intro name routed
    have nameSeat := reseats.seat
    rw [← routed] at nameSeat
    rw [place_of_seat nameSeat, routed, Shard.primary_upsert roomyCoherent,
      keyed]
  have routed : ∀ name ∈ draft.names,
      after.route name = before.route draft.key := fun _ =>
    route_of_claims claims reseats
  refine ⟨reading, ?own, ?others, ?fresh, ?routes, ?key, ?asked,
    ?spared, ?binds⟩
  case own =>
    intro instant
    rw [shown_of_seat reseats.seat, Shard.entries_upsert, keyed,
      ExtTreeMap.getElem?_insert_self, Option.bind_some, Entry.shown,
      Entry.isExpired, expiresAt, value]
    simp only [decide_eq_true_eq]
  case others =>
    rintro ⟨index, key⟩ apart instant
    by_cases home : index = before.route draft.key
    · subst home
      have otherKey : ¬ draft.key = key := by
        rintro rfl
        exact apart rfl
      rw [shown_of_seat reseats.seat, Shard.entries_upsert, keyed,
        ExtTreeMap.getElem?_insert, shown_of_seat seat]
      simp only [Std.compare_eq_iff_eq, otherKey, if_false, Evicts, evictees,
        true_and]
      rw [alike.shown, Shard.cleared, Shard.getElem?_entries_eraseAll]
      split
      · rfl
      · rfl
    · rw [if_neg fun evicted => home evicted.1]
      exact shown_eq_of_shards (elsewhere index home) instant
  case fresh =>
    intro again name leads
    have home : after.route name = before.route draft.key :=
      congrArg Prod.fst leads
    have nameSeat : after.shards[after.route name]? =
        some (roomy.upsert entry draft.aliases) :=
      home ▸ reseats.seat
    have stood : (roomy.upsert entry draft.aliases).primary name =
        draft.key :=
      congrArg Prod.snd ((place_of_seat nameSeat).symm.trans leads)
    have resolved : (roomy.upsert entry draft.aliases).resolve name =
        some entry := by
      rw [Shard.resolve, stood, Shard.entries_upsert, keyed,
        ExtTreeMap.getElem?_insert_self]
    have live : now ≤ entry.expiresAt := expiresAt ▸ le_deadline now _
    have glance := Shard.glance_of_resolve resolved live early
    rw [deciding, nameSeat]
    generalize after.clock.read = outcome at again ⊢
    obtain ⟨first, clock⟩ := outcome
    cases again
    simp [glance]
  case routes =>
    intro name
    split
    next member => exact routed name member
    next apart => exact route_of_claims_other claims reseats apart
  case key =>
    rw [led draft.key (routed draft.key List.mem_cons_self),
      if_pos (Or.inl rfl)]
  case asked =>
    intro name asked apart
    rw [led name (routed name (List.mem_cons_of_mem _ asked))]
    have stays : name ∈ roomy.entries ↔
        before.Stores (before.route draft.key) name ∧
          ¬ before.Evicts settings draft.key
            (before.route draft.key, name) := by
      rw [alike.mem_entries, Shard.cleared, Shard.mem_entries_eraseAll,
        stores_iff_of_seat seat]
      simp [Evicts, evictees]
    by_cases stored : name ∈ roomy.entries
    · rw [if_pos (stays.mp stored), Shard.primary_of_stored stored]
      simp [apart, stored]
    · rw [if_neg (not_congr stays |>.mp stored)]
      simp [asked, stored]
  case spared =>
    intro name apart stays
    have same := route_of_claims_other claims reseats apart
    by_cases home : before.route name = before.route draft.key
    · have nameSeat : before.shards[before.route name]? = some shard :=
        home ▸ seat
      have placed := place_of_seat nameSeat
      rw [placed] at stays ⊢
      have kept : shard.primary name ∉
          shard.evictees settings.evictionPercentage draft.key :=
        fun evicted => stays ⟨home, evictees ▸ evicted⟩
      have stillLeads : roomy.primary name = shard.primary name :=
        (alike.primary name).trans (Shard.primary_eraseAll_of_kept old kept)
      rw [led name (same.trans home), stillLeads, home]
      rw [Draft.names, List.mem_cons, not_or] at apart
      by_cases own : shard.primary name = draft.key
      · simp [apart.1, apart.2, own]
      · simp [apart.1, apart.2, own]
    · rw [if_neg fun equal => home (congrArg Prod.fst equal)]
      exact place_eq_of_shards same (elsewhere _ home)
  case binds =>
    intro name owner unasked
    have notBound : name ∉ Shard.boundAliases draft.key draft.aliases :=
      fun bound => unasked (Shard.mem_boundAliases.mp bound).1
    rw [bound?_of_seat reseats.seat, bound?_of_seat seat,
      Shard.getElem?_keyOfAlias_upsert roomyCoherent, keyed,
      if_neg notBound, alike.keyOfAlias]
    have stays := Shard.keyOfAlias_eraseAll_eq_some_iff old
      (shard.evictees settings.evictionPercentage draft.key) name
    rw [Shard.cleared]
    simp only [Evicts, evictees, true_and]
    constructor
    · intro bound
      split at bound
      · cases bound
      next other =>
        obtain ⟨earlier, kept⟩ := (stays owner).mp bound
        refine ⟨earlier, ?_, kept⟩
        rintro rfl
        exact other bound
    · rintro ⟨earlier, apart, kept⟩
      have bound := (stays owner).mpr ⟨earlier, kept⟩
      rw [bound, if_neg]
      simpa using apart

/-- A write that returns and is not dropped is written. -/
theorem ends_writeDraft_written
    (coherent : before.Coherent) (draft : Draft Value)
    (kept : ¬ before.Drops settings draft.key) :
    Ends (writeDraft settings draft) before
      (fun _ after => ∃ now, Written settings draft now before after)
      (fun _ _ => True) := by
  obtain ⟨shard, seat⟩ := coherent.seat draft.key
  refine (ends_write seat).weaken ?_ fun _ _ _ => trivial
  intro evicted after outcome
  obtain ⟨claimed, now, refreshAt, padding, roomy, claims, reading,
    refreshTime, alike, reseats⟩ := outcome.of_not_drops seat kept
  refine ⟨now, written_of_stored coherent seat claims reading alike rfl rfl rfl
    ?_ reseats⟩
  intro instant due
  subst refreshTime
  obtain ⟨window, _, rfl⟩ := Option.map_eq_some_iff.mp due
  exact le_deadline now _

/-- A write without aliases that is dropped changes nothing. -/
theorem ends_writeDraft_bare_dropped
    (coherent : before.Coherent) {draft : Draft Value}
    (bare : draft.aliases = []) (drops : before.Drops settings draft.key) :
    Ends (writeDraft settings draft) before
      (fun _ after => Alike before after) (fun _ _ => True) := by
  obtain ⟨shard, seat⟩ := coherent.seat draft.key
  refine (ends_write seat).weaken ?_ fun _ _ _ => trivial
  intro evicted after outcome
  cases outcome with
  | dropped refuses claims =>
      refine .of_eq claims.shards (ExtTreeMap.ext_getElem? fun name => ?_)
      rcases claims.routes name with same | ⟨_, _, asked, _⟩
      · exact same
      · rw [bare] at asked
        cases asked
  | stored room => exact absurd ((drops_iff_of_seat seat).mp drops) room

end Written

/-! ## Deletions -/

/-- The entry that a name leads to is gone. -/
structure Deleted (name : String) (before after : Cache Value) : Prop where
  shown : ∀ place instant, after.shown place instant =
    if place = before.place name then none else before.shown place instant
  routes : ∀ other, after.route other = before.route other
  /-- Names that lead elsewhere stay where they were. -/
  spared : ∀ other, before.place other ≠ before.place name →
    after.place other = before.place other
  /-- Only the aliases of the entry have been unbound. -/
  binds : ∀ other owner,
    after.bound? (before.route name) other = some owner ↔
      before.bound? (before.route name) other = some owner ∧
        owner ≠ (before.place name).2

theorem ends_delete_deleted
    {before : Cache Value} (coherent : before.Coherent) (name : String) :
    Ends (delete name) before
      (fun _ after => Deleted name before after) (fun _ _ => False) := by
  obtain ⟨shard, seat⟩ := coherent.seat name
  have old := coherent.shards seat
  refine (ends_delete seat).weaken ?_ fun _ _ => id
  rintro existed after ⟨_, _, reseats⟩
  have placed := place_of_seat seat
  have erased : (shard.delete name).2 = shard.erase (shard.primary name) :=
    rfl
  rw [erased] at reseats
  have routed : ∀ other, after.route other = before.route other := by
    intro other
    unfold route
    rw [reseats.routes, reseats.size]
  have led : ∀ other, before.route other = before.route name →
      after.place other =
        (before.route name, (shard.erase (shard.primary name)).primary
          other) := by
    intro other home
    have otherSeat := reseats.seat
    rw [← home, ← routed other] at otherSeat
    rw [place_of_seat otherSeat, routed other, home]
  refine ⟨?shown, routed, ?spared, ?binds⟩
  case shown =>
    rintro ⟨index, key⟩ instant
    rw [placed]
    by_cases home : index = before.route name
    · subst home
      rw [shown_of_seat reseats.seat, shown_of_seat seat, Shard.entries_erase,
        ExtTreeMap.getElem?_erase]
      by_cases same : shard.primary name = key
      · simp [same]
      · simp [same, Ne.symm same]
    · rw [if_neg fun equal => home (congrArg Prod.fst equal)]
      exact shown_eq_of_shards (reseats.others home) instant
  case spared =>
    intro other apart
    by_cases home : before.route other = before.route name
    · have otherSeat : before.shards[before.route other]? = some shard :=
        home ▸ seat
      have otherPlaced := place_of_seat otherSeat
      rw [placed, otherPlaced, home] at apart
      rw [led other home, otherPlaced, home]
      have otherKey : shard.primary other ≠ shard.primary name := fun same =>
        apart (congrArg (Prod.mk _) same)
      by_cases itself : other = shard.primary name
      · -- Nothing is stored under a name that stands for another one.
        have free : other ∉ shard.entries := fun stored =>
          otherKey ((Shard.primary_of_stored stored).trans itself)
        rw [← itself, Shard.primary_erase_self old,
          Shard.primary_of_free free]
      · rw [Shard.primary_erase_of_ne old itself, if_neg otherKey]
    · exact place_eq_of_shards (routed other) (reseats.others home)
  case binds =>
    intro other owner
    rw [bound?_of_seat reseats.seat, bound?_of_seat seat, placed,
      Shard.getElem?_keyOfAlias_erase old]
    by_cases own : shard.keyOfAlias[other]? = some (shard.primary name)
    · rw [if_pos own, own]
      constructor
      · intro impossible
        cases impossible
      · rintro ⟨same, apart⟩
        exact absurd (Option.some.inj same).symm apart
    · rw [if_neg own]
      refine ⟨fun bound => ⟨bound, ?_⟩, And.left⟩
      rintro rfl
      exact own bound

end Cache

end ReadThrough
