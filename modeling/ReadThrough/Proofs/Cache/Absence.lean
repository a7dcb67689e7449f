import ReadThrough.Proofs.Cache.Capacity
import ReadThrough.Proofs.Cache.Places

/-!
# Taking note that a record is gone

A refresh that learns that there is no record of a name deletes what the name
leads to.  Where missing records are stored it writes one instead, under the
name that it was given and not under the key that this name stands for.

`Forgets` says which entries that removes, and `Absented` what is read
afterwards.  The names of a forgotten entry are `Valueless`: no value is read
under them before somebody writes under them again.
-/

namespace ReadThrough

open Std (ExtTreeMap)

variable {Value : Type}

/-- What a refresh does about a name that there is no record of. -/
def Act.absence (settings : Settings) (name : String) : Act Value :=
  if settings.storesMissing then .write ⟨name, none, []⟩ else .delete name

/-- An act writes under a name, be it the key or an alias. -/
def Act.Writes (name : String) : Act Value → Prop
  | .write draft => name ∈ draft.names
  | _ => False

instance (name : String) (act : Act Value) : Decidable (act.Writes name) :=
  match act with
  | .write draft => inferInstanceAs (Decidable (name ∈ draft.names))
  | .quiet _ => inferInstanceAs (Decidable False)
  | .delete _ => inferInstanceAs (Decidable False)
  | .sweep _ => inferInstanceAs (Decidable False)

/-! ## Names without a value -/

/-- A shard binds a name to no key and stores no value under it. -/
structure Shard.Valueless (shard : Shard Value) (name : String) : Prop where
  unbound : shard.keyOfAlias[name]? = none
  nothing : ∀ entry ∈ shard.entries[name]?, entry.value = none

namespace Shard.Valueless

variable {shard other : Shard Value} {name : String}
  (valueless : shard.Valueless name)

include valueless

theorem of_alike (alike : shard.Alike other) : other.Valueless name where
  unbound := by rw [alike.keyOfAlias, valueless.unbound]
  nothing := by
    intro entry found
    have same := alike.entries name
    rw [Option.mem_def.mp found] at same
    obtain ⟨earlier, stored, settled⟩ :=
      Option.map_eq_some_iff.mp same.symm
    rw [← valueless.nothing earlier stored]
    exact (congrArg Entry.value settled).symm

theorem eraseAll (keys : List String) :
    (shard.eraseAll keys).Valueless name where
  unbound := by
    cases later : (shard.eraseAll keys).keyOfAlias[name]? with
    | none => rfl
    | some owner =>
        cases valueless.unbound.symm.trans (keyOfAlias_of_eraseAll later)
  nothing := by
    intro entry found
    rw [getElem?_entries_eraseAll] at found
    split at found
    · cases found
    · exact valueless.nothing entry found

theorem upsert
    (coherent : shard.Coherent) {entry : Entry Value} {aliases : List String}
    (apart : name ≠ entry.key) (unasked : name ∉ aliases) :
    (shard.upsert entry aliases).Valueless name where
  unbound := by
    rw [getElem?_keyOfAlias_upsert coherent,
      if_neg fun bound => unasked (mem_boundAliases.mp bound).1,
      valueless.unbound]
    split
    · rfl
    · rfl
  nothing := by
    intro found stored
    rw [entries_upsert, ExtTreeMap.getElem?_insert] at stored
    simp only [Std.compare_eq_iff_eq, Ne.symm apart, if_false] at stored
    exact valueless.nothing found stored

/-- Nobody finds a value under a valueless name. -/
theorem seen_ne (now : Instant) (value : Value) :
    shard.seen name now ≠ some (some value) := by
  intro seen
  have itself : shard.primary name = name := by
    rw [primary]
    split
    · rfl
    · rw [valueless.unbound, Option.getD_none]
  rw [Shard.seen, resolve, itself, Option.bind_eq_some_iff] at seen
  obtain ⟨entry, found, shown⟩ := seen
  have empty := valueless.nothing entry found
  rw [(Entry.shown_eq_some_iff.mp shown).2] at empty
  cases empty

end Shard.Valueless

namespace Cache

/-- The shard that a name is routed to binds it to no key and stores no value
under it. -/
def Valueless (cache : Cache Value) (name : String) : Prop :=
  ∀ shard ∈ cache.shards[cache.route name]?, shard.Valueless name

section Valueless

variable {settings : Settings} {cache before after : Cache Value}
  {name : String} {index : Nat} {shard later : Shard Value}

/-- A lookup of a valueless name finds no value. -/
theorem Valueless.ends_lookup
    (valueless : cache.Valueless name) (coherent : cache.Coherent)
    {now : Instant} (decided : cache.deciding name = .ok now) :
    Ends (lookup settings name) cache
      (fun found _ => ∀ value, found.content ≠ some (some value))
      (fun _ _ => False) := by
  obtain ⟨shard, seat⟩ := coherent.seat name
  refine (ends_lookup_of_deciding seat decided).weaken ?_ fun _ _ => id
  intro found _ content value
  rw [content]
  exact (valueless shard seat).seen_ne now value

/-- A name is valueless if it is not bound and its own place shows no value. -/
theorem valueless_of_shown
    (unbound : cache.bound? (cache.route name) name = none)
    (nothing : ∀ instant value,
      cache.shown (cache.route name, name) instant ≠ some (some value)) :
    cache.Valueless name := by
  intro shard seat
  rw [bound?_of_seat seat] at unbound
  refine ⟨unbound, fun entry found => ?_⟩
  cases held : entry.value with
  | none => rfl
  | some value =>
      have shown : cache.shown (cache.route name, name) entry.expiresAt =
          some (some value) := by
        rw [shown_of_seat seat, Option.mem_def.mp found, Option.bind_some,
          Entry.shown_eq_some_iff]
        exact ⟨Nat.le_refl _, held⟩
      exact absurd shown (nothing entry.expiresAt value)

theorem Valueless.of_alike
    (valueless : before.Valueless name) (alike : Alike before after) :
    after.Valueless name := by
  intro shard seat
  rw [alike.route] at seat
  obtain ⟨earlier, earlierSeat, similar⟩ := alike.symm.shards seat
  exact (valueless earlier earlierSeat).of_alike similar.symm

/-- Registering other names leaves a valueless name alone. -/
theorem Valueless.of_registers
    {key : String} {aliases : List String}
    (valueless : before.Valueless name) (unasked : name ∉ aliases)
    (registers : Registers key index aliases before after) :
    after.Valueless name := by
  have same : after.route name = before.route name := by
    rcases registers.routes name with kept | ⟨_, _, asked, _⟩
    · rw [route, route, kept, registers.shards]
    · exact absurd asked unasked
  rw [Valueless, same, registers.shards]
  exact valueless

theorem Valueless.of_reseats
    (valueless : before.Valueless name)
    (seat : before.shards[index]? = some shard)
    (keeps : shard.Valueless name → later.Valueless name)
    (reseats : Reseats index later before after) :
    after.Valueless name := by
  have same : after.route name = before.route name := by
    rw [route, route, reseats.routes, reseats.size]
  intro found foundSeat
  rw [same, reseats.shards_eq] at foundSeat
  split at foundSeat
  next home =>
    cases foundSeat
    exact keeps (valueless shard (home ▸ seat))
  next => exact valueless found foundSeat

/-- A valueless name stays so as long as nobody writes under it. -/
theorem Effect.valueless
    {act : Act Value} (effect : Effect settings before act after)
    (coherent : before.Coherent) (silent : ¬ act.Writes name)
    (valueless : before.Valueless name) : after.Valueless name := by
  cases effect with
  | quiet alike => exact valueless.of_alike alike
  | @removes _ _ index shard keys seat reseats =>
      exact valueless.of_reseats seat (fun held => held.eraseAll keys) reseats
  | @writes draft _ shard result seat outcome =>
      have unnamed : name ≠ draft.key ∧ name ∉ draft.aliases := by
        rw [← not_or, ← List.mem_cons]
        exact silent
      have claimed : ∀ {claimed : Cache Value},
          Registers draft.key (before.route draft.key) draft.aliases
              (before.noted (.routed (before.route draft.key))) claimed →
            claimed.Valueless name :=
        (valueless.of_alike (alike_noted before _)).of_registers unnamed.2
      have cleared : ∀ {roomy : Shard Value},
          (shard.cleared settings.evictionPercentage draft.key).Alike roomy →
            shard.Valueless name → roomy.Valueless name :=
        fun alike held => (held.eraseAll _).of_alike alike
      cases outcome with
      | conflict clash registers => exact claimed registers
      | dropped refuses claims => exact claimed claims.toRegisters
      | broken room harmless claims alike reseats =>
          exact (claimed claims.toRegisters).of_reseats
            (claims.shards.symm ▸ seat) (cleared alike) reseats
      | stored room claims reading refreshTime alike reseats =>
          have roomy := alike.coherent ((coherent.shards seat).eraseAll _)
          exact (claimed claims.toRegisters).of_reseats
            (claims.shards.symm ▸ seat)
            (fun held => (cleared alike held).upsert roomy unnamed.1
              unnamed.2) reseats

theorem Valueless.follow
    (valueless : cache.Valueless name) (coherent : cache.Coherent)
    {acts : List (Act Value)} (silent : ∀ act ∈ acts, ¬ act.Writes name) :
    (follow settings cache acts).Valueless name := by
  induction acts generalizing cache with
  | nil => exact valueless
  | cons act acts inductionHypothesis =>
      obtain ⟨first, rest⟩ := List.forall_mem_cons.mp silent
      exact inductionHypothesis
        ((effect_of_act settings coherent act).valueless coherent first
          valueless)
        (coherent.after settings act) rest

end Valueless

/-! ## What is forgotten -/

/-- Taking note of the absence of a name removes the entry at a place.  Without
missing records that is the entry that the name leads to.  A missing record
takes the place of an entry with the name for its key, and of those that have
to make room for it. -/
def Forgets
    (settings : Settings) (cache : Cache Value) (name : String)
    (place : Nat × String) : Prop :=
  if settings.storesMissing then
    ¬ cache.Drops settings name ∧
      (place = (cache.route name, name) ∨ cache.Evicts settings name place)
  else place = cache.place name

instance (settings : Settings) (cache : Cache Value) (name : String)
    (place : Nat × String) : Decidable (cache.Forgets settings name place) :=
  inferInstanceAs (Decidable
    (if settings.storesMissing then
      ¬ cache.Drops settings name ∧
        (place = (cache.route name, name) ∨
          cache.Evicts settings name place)
    else place = cache.place name))

/-- The entry that a name leads to is forgotten unless a missing record has been
stored beside it, under an alias of it. -/
theorem forgets_place_iff
    {settings : Settings} {cache : Cache Value} {name : String}
    (coherent : cache.Coherent)
    (stored : cache.Stores (cache.place name).1 (cache.place name).2) :
    cache.Forgets settings name (cache.place name) ↔
      settings.storesMissing = false ∨ (cache.place name).2 = name ∨
        ¬ cache.Drops settings name ∧
          cache.Evicts settings name (cache.place name) := by
  rw [Forgets]
  split
  next stores =>
    have own : cache.place name = (cache.route name, name) ↔
        (cache.place name).2 = name :=
      ⟨fun same => congrArg Prod.snd same, fun same => Prod.ext rfl same⟩
    -- Nothing has to make room for a key that is stored.
    have room : (cache.place name).2 = name →
        ¬ cache.Drops settings name := by
      intro same
      obtain ⟨shard, seat⟩ := coherent.seat name
      rw [same, place_fst, stores_iff_of_seat seat] at stored
      rw [drops_iff_of_seat seat]
      intro refuses
      exact (Shard.isFullFor_iff.mp refuses.1).1 stored
    rw [own, stores]
    constructor
    · rintro ⟨kept, same | evicted⟩
      · exact Or.inr (Or.inl same)
      · exact Or.inr (Or.inr ⟨kept, evicted⟩)
    · rintro (bare | same | ⟨kept, evicted⟩)
      · cases bare
      · exact ⟨room same, Or.inl same⟩
      · exact ⟨kept, Or.inr evicted⟩
  next bare =>
    exact iff_of_true rfl (Or.inl (Bool.eq_false_iff.mpr bare))

/-- What is read once note has been taken of the absence of a name. -/
structure Absented
    (settings : Settings) (name : String) (before after : Cache Value) :
    Prop where
  /-- A forgotten entry is gone under all its names.  A key that is an alias of
  another entry as well leads there from then on. -/
  forgotten : ∀ {index key other}, before.Forgets settings name (index, key) →
    before.place other = (index, key) →
      (other = key → before.bound? index key = none) → after.Valueless other
  /-- All other entries are still read under their names, but for the name that
  a missing record has been stored under. -/
  kept : ∀ {place other}, ¬ before.Forgets settings name place →
    before.place other = place →
      (settings.storesMissing → other = name →
        before.Drops settings name) →
        after.place other = place ∧
          ∀ instant, after.shown place instant = before.shown place instant
  /-- The name reads a missing record, where these are stored. -/
  missing : settings.storesMissing → ¬ before.Drops settings name →
    ∃ now, before.clock.read = (.ok now, after.clock) ∧
      after.place name = (before.route name, name) ∧
        after.shown (before.route name, name) now = some none

section Absence

variable {settings : Settings} {before after : Cache Value} {name : String}

/-- A name that does not lead to itself is an alias of what it leads to. -/
theorem bound?_of_place
    (coherent : before.Coherent) {index : Nat} {key other : String}
    (leads : before.place other = (index, key)) (apart : other ≠ key) :
    before.route other = index ∧ ¬ before.Stores index other ∧
      before.bound? index other = some key := by
  obtain ⟨shard, seat⟩ := coherent.seat other
  rw [place_of_seat seat] at leads
  obtain ⟨rfl, stands⟩ := Prod.mk.inj leads
  obtain ⟨free, bound⟩ := Shard.bound_of_primary stands apart
  rw [stores_iff_of_seat seat, bound?_of_seat seat]
  exact ⟨rfl, free, bound⟩

/-- The names of an entry are valueless after it has gone with its aliases. -/
theorem valueless_of_place
    (coherent : before.Coherent) {index : Nat} {key other : String}
    (leads : before.place other = (index, key))
    (itself : other = key → before.bound? index key = none)
    (routed : after.route other = before.route other)
    (binds : ∀ owner, after.bound? index other = some owner →
      before.bound? index other = some owner ∧ owner ≠ key)
    (shown : ∀ instant value,
      after.shown (index, other) instant = some (some value) →
        other ≠ key ∧
          before.shown (index, other) instant = some (some value)) :
    after.Valueless other := by
  have home : before.route other = index := congrArg Prod.fst leads
  apply valueless_of_shown
  · rw [routed, home]
    cases later : after.bound? index other with
    | none => rfl
    | some owner =>
        obtain ⟨earlier, apart⟩ := binds owner later
        by_cases own : other = key
        · rw [own, itself own] at earlier
          cases earlier
        · rw [(bound?_of_place coherent leads own).2.2] at earlier
          exact absurd (Option.some.inj earlier).symm apart
  · intro instant value found
    rw [routed, home] at found
    obtain ⟨apart, earlier⟩ := shown instant value found
    rw [shown_of_not_stores (bound?_of_place coherent leads apart).2.1]
      at earlier
    cases earlier

/-- A deletion is what a refresh does where no missing records are stored. -/
theorem Deleted.absented
    (coherent : before.Coherent) (bare : settings.storesMissing = false)
    (deleted : Deleted name before after) :
    Absented settings name before after := by
  have forgets : ∀ place, before.Forgets settings name place ↔
      place = before.place name := by
    intro place
    rw [Forgets, bare]
    exact Iff.rfl
  refine ⟨?forgotten, ?kept, fun stores => ?missing⟩
  case forgotten =>
    intro index key other forgotten leads itself
    have same := (forgets _).mp forgotten
    have home : before.route name = index := (congrArg Prod.fst same).symm
    refine valueless_of_place coherent leads itself (deleted.routes other)
      (fun owner later => ?_) fun instant value found => ?_
    · have kept := (deleted.binds other owner).mp (home.symm ▸ later)
      rw [home, ← same] at kept
      exact kept
    · rw [deleted.shown, ← same] at found
      split at found
      · cases found
      next apart => exact ⟨fun own => apart (own ▸ rfl), found⟩
  case kept =>
    rintro place other spared rfl _
    have apart := not_congr (forgets _) |>.mp spared
    exact ⟨deleted.spared other apart, fun instant =>
      (deleted.shown _ instant).trans (if_neg apart)⟩
  case missing =>
    rw [bare] at stores
    cases stores

/-- A missing record that has been written is what a refresh leaves where these
are stored. -/
theorem Written.absented
    (coherent : before.Coherent) (stores : settings.storesMissing)
    (room : ¬ before.Drops settings name) {now : Instant}
    (written : Written settings ⟨name, none, []⟩ now before after) :
    Absented settings name before after := by
  have forgets : ∀ place, before.Forgets settings name place ↔
      place = (before.route name, name) ∨
        before.Evicts settings name place := by
    intro place
    rw [Forgets, if_pos stores]
    exact and_iff_right room
  have unnamed : ∀ {other : String}, other ≠ name →
      other ∉ (⟨name, none, []⟩ : Draft Value).names := by
    intro other apart member
    exact apart (List.mem_singleton.mp member)
  refine ⟨?forgotten, ?kept, fun _ _ => ⟨now, written.reading, written.key,
    ?missing⟩⟩
  case forgotten =>
    intro index key other forgotten leads itself
    have home : index = before.route name := by
      rcases (forgets _).mp forgotten with own | evicted
      · exact congrArg Prod.fst own
      · exact evicted.1
    have binds : ∀ owner, after.bound? index other = some owner →
        before.bound? index other = some owner ∧ owner ≠ key := by
      intro owner later
      rw [home] at later
      obtain ⟨earlier, apart, stays⟩ :=
        (written.binds other owner List.not_mem_nil).mp later
      refine ⟨home ▸ earlier, ?_⟩
      rintro rfl
      rcases (forgets _).mp forgotten with own | evicted
      · exact apart (congrArg Prod.snd own)
      · exact stays (home ▸ evicted)
    have routed : after.route other = before.route other := by
      rw [written.routes]
      split
      next member => rw [List.mem_singleton.mp member]
      next => rfl
    refine valueless_of_place coherent leads itself routed binds
      fun instant value found => ?_
    by_cases own : other = name
    · -- Under the name itself there is the missing record.
      rw [home, own, written.own] at found
      split at found
      · cases found
      · cases found
    · have apart : (index, other) ≠ (before.route name, name) := fun same =>
        own (congrArg Prod.snd same)
      rw [written.others _ apart] at found
      split at found
      · cases found
      next stays =>
        refine ⟨?_, found⟩
        rintro rfl
        exact ((forgets _).mp forgotten).elim apart stays
  case kept =>
    rintro place other spared rfl stored
    obtain ⟨apart, stays⟩ := not_or.mp (not_congr (forgets _) |>.mp spared)
    have different : other ≠ name := fun same => room (stored stores same)
    refine ⟨?_, fun instant => ?_⟩
    · rw [written.spared other (unnamed different) stays]
      exact if_neg apart
    · exact (written.others _ apart instant).trans (if_neg stays)
  case missing =>
    rw [written.own]
    exact if_neg (Nat.not_lt.mpr (le_deadline now _))

/-- What a refresh does about a name that there is no record of. -/
theorem ends_absence (coherent : before.Coherent) (name : String) :
    Ends ((Act.absence settings name).action settings) before
      (fun _ after => Absented settings name before after)
      (fun _ _ => True) := by
  rw [Act.absence]
  split
  next stores =>
    refine ends_discard.mpr ?_
    by_cases drops : before.Drops settings name
    · refine (ends_writeDraft_bare_dropped coherent rfl drops).weaken ?_
        fun _ _ => id
      intro _ after alike
      have nothing : ∀ place, ¬ before.Forgets settings name place := by
        intro place
        rw [Forgets, if_pos stores]
        exact fun forgotten => forgotten.1 drops
      refine ⟨fun forgotten => absurd forgotten (nothing _), ?_,
        fun _ room => absurd drops room⟩
      rintro place other _ rfl _
      exact ⟨alike.place other, alike.shown _⟩
    · refine (ends_writeDraft_written coherent _ drops).weaken ?_
        fun _ _ => id
      rintro _ after ⟨now, written⟩
      exact written.absented coherent stores drops
  next bare =>
    refine ends_discard.mpr ((ends_delete_deleted coherent name).weaken ?_
      fun _ _ => False.elim)
    intro _ after deleted
    exact deleted.absented coherent (Bool.eq_false_iff.mpr bare)

end Absence

end Cache

end ReadThrough
