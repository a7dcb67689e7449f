import ReadThrough.Proofs.Cache.Holding
import ReadThrough.Proofs.Cache.Ledger

/-!
# What a deletion takes away

Whatever name a deletion is given, one place is emptied: the place of that name.
All other places hold what they held, and all names that led elsewhere lead
there still.

The names that led to the emptied place are aliases of its key, and the key
itself.  The aliases are unbound and lead to nothing.  The key may be an alias of
another entry that its own entry has hidden.  Removing what hides such an alias
uncovers it, and the key leads to the other entry from then on.
-/

namespace ReadThrough.Cache

open Std (ExtTreeMap)

variable {Value : Type}

/-- The entry that a name leads to has been withdrawn, and nothing else has
changed. -/
structure Withdrawn (name : String) (before after : Cache Value) : Prop where
  clock : after.clock = before.clock
  routes : after.routes = before.routes
  size : after.shards.size = before.shards.size
  /-- Of all places only that of the name is emptied. -/
  held : ∀ place, after.held place =
    if place = before.place name then none else before.held place
  /-- Of all aliases only those of the entry are unbound. -/
  binds : ∀ index other owner,
    after.bound? index other = some owner ↔
      before.bound? index other = some owner ∧
        (index, owner) ≠ before.place name
  /-- Names that led elsewhere lead there still. -/
  spared : ∀ other, before.place other ≠ before.place name →
    after.place other = before.place other
  /-- Names that led to the entry stand for themselves, except for its key when
  that is an alias of another entry. -/
  led : ∀ other, before.place other = before.place name →
    after.place other =
      (before.route name,
        if other = (before.place name).2 then
          (before.bound? (before.route name) other).getD other
        else other)

section Deleting

variable {cache : Cache Value}

theorem withdrawn_of_reseats
    {name : String} {shard : Shard Value} {after : Cache Value}
    (coherent : cache.Coherent)
    (seat : cache.shards[cache.route name]? = some shard)
    (deleted : Deleted name cache after)
    (clock : after.clock = cache.clock)
    (reseats : Reseats (cache.route name) (shard.erase (shard.primary name))
      cache after) : Withdrawn name cache after := by
  have old := coherent.shards seat
  have placed := place_of_seat seat
  refine ⟨clock, reseats.routes, reseats.size, ?held, ?binds, deleted.spared,
    ?led⟩
  case held =>
    rintro ⟨index, key⟩
    rw [reseats.held, placed, Shard.held_erase old]
    by_cases home : index = cache.route name
    · subst home
      rw [if_pos rfl, held_of_seat seat]
      simp [eq_comm]
    · rw [if_neg home, if_neg fun same => home (congrArg Prod.fst same)]
  case binds =>
    intro index other owner
    by_cases home : index = cache.route name
    · subst home
      rw [deleted.binds, placed]
      simp
    · have away : (index, owner) ≠ cache.place name := fun same =>
        home (congrArg Prod.fst same)
      rw [bound?, bound?, reseats.others home, and_iff_left away]
  case led =>
    intro other same
    have home : cache.route other = cache.route name :=
      congrArg Prod.fst same
    have otherSeat := reseats.seat
    rw [← home, ← deleted.routes other] at otherSeat
    rw [place_of_seat otherSeat, deleted.routes other, home, placed,
      bound?_of_seat seat]
    have stood : shard.primary other = shard.primary name := by
      have otherPlaced : cache.place other =
          (cache.route other, shard.primary other) :=
        place_of_seat (home ▸ seat)
      rw [otherPlaced, placed] at same
      exact congrArg Prod.snd same
    by_cases own : other = shard.primary name
    · rw [if_pos own, own, Shard.primary_erase_self old]
    · rw [if_neg own, Shard.primary_erase_of_ne old own, if_pos stood]

/-- Every deletion returns.  Its answer tells whether the place of the name held
anything, and the entry is withdrawn. -/
theorem ends_delete_withdrawn
    (coherent : cache.Coherent) (name : String) :
    Ends (delete name) cache
      (fun existed after =>
        existed = (cache.held (cache.place name)).isSome ∧
          Withdrawn name cache after)
      (fun _ _ => False) := by
  obtain ⟨shard, seat⟩ := coherent.seat name
  refine ((ends_delete seat).and (ends_delete_deleted coherent name)).weaken
    ?_ fun _ _ => And.left
  rintro existed after ⟨⟨rfl, clock, reseats⟩, deleted⟩
  refine ⟨?_, withdrawn_of_reseats coherent seat deleted clock reseats⟩
  rw [place_of_seat seat, held_of_seat seat, Bool.eq_iff_iff,
    Shard.isSome_held_iff]
  exact decide_eq_true_iff

end Deleting

namespace Withdrawn

variable {settings : Settings} {name other : String}
  {before after : Cache Value}

/-- A name that led to the withdrawn entry leads to nothing, unless it is the
key of that entry and an alias of another one. -/
theorem unheld
    (withdrawn : Withdrawn name before after) (coherent : before.Coherent)
    (led : before.place other = before.place name)
    (unhidden : other = (before.place name).2 →
      before.bound? (before.route name) other = none) :
    after.held (after.place other) = none := by
  have home : before.route other = before.route name :=
    congrArg Prod.fst led
  obtain ⟨shard, seat⟩ := coherent.seat name
  rw [withdrawn.led other led, withdrawn.held]
  split
  next own =>
    rw [unhidden own, Option.getD_none, own, ← place_fst before name,
      if_pos rfl]
  next apart =>
    -- Nothing is stored under a name that stands for another one.
    have otherPlaced : before.place other =
        (before.route other, shard.primary other) :=
      place_of_seat (home ▸ seat)
    have stood : shard.primary other = (before.place name).2 := by
      rw [← led, otherPlaced]
    obtain ⟨free, _⟩ := Shard.bound_of_primary stood apart
    rw [held_of_seat seat, Shard.held_eq_none_iff.mpr free, ite_self]

end Withdrawn

/-! ## Names that hide each other -/

/-- The second entry has an alias that the first one hides, and another that
nothing hides. -/
def overlaid : List (Operation NameTag) :=
  [.act (.write ⟨"a", some ⟨"a", []⟩, []⟩),
    .act (.write ⟨"b", some ⟨"b", ["a", "t"]⟩, ["a", "t"]⟩)]

/-- Whatever has been done to a new cache, a deletion returns, and its answer
tells whether the name led to a stored entry.  Afterwards that entry is gone with
its aliases, and every other entry, every other alias and every route is what it
was.  Every name that led to the entry is absent at every reading of the clock;
only the key of the entry, when it is an alias of another entry of the shard,
leads to that other entry. -/
theorem deletion_withdraws_one_entry [Keyed Value]
    {settings : Settings} (valid : settings.Valid)
    (paddings : Nat → List Nat) (operations : List (Operation Value))
    (name : String) :
    let before := operate settings (empty settings paddings) operations
    let home := before.route name
    let key := (before.place name).2
    Ends (delete name) before
      (fun existed after =>
        existed = (before.held (before.place name)).isSome ∧
        Withdrawn name before after ∧
        (∀ other, before.place other = before.place name →
          (other = key → before.bound? home other = none) →
            ∀ (clock : Clock) (now : Instant), clock.read.1 = .ok now →
              Ends (lookup settings other) (after.withClock clock)
                (fun found _ => found = .absent) (fun _ _ => False)) ∧
        (before.place key = before.place name →
          ∀ owner, before.bound? home key = some owner →
            after.place key = (home, owner) ∧
              (after.held (home, owner)).isSome ∧
                after.held (home, owner) = before.held (home, owner)))
      (fun _ _ => False) := by
  intro before home key
  have coherent : before.Coherent :=
    coherent_of_operations valid paddings operations
  have kept := coherent.ends_of_respects (respects_delete_runs settings name)
  refine ((ends_delete_withdrawn coherent name).and kept).weaken ?_
    fun _ _ => And.left
  rintro existed after ⟨⟨answer, withdrawn⟩, coherentAfter⟩
  refine ⟨answer, withdrawn, ?absent, ?uncovered⟩
  case absent =>
    intro other led unhidden clock now reading
    obtain ⟨shard, seat⟩ := coherentAfter.seat other
    exact ends_lookup_of_unheld settings seat
      (withdrawn.unheld coherent led unhidden) reading
  case uncovered =>
    intro led owner bound
    obtain ⟨shard, seat⟩ := coherent.seat name
    rw [bound?_of_seat seat] at bound
    have apart : owner ≠ key := fun same =>
      Shard.keyOfAlias_self_ne (coherent.shards seat) key (same ▸ bound)
    have spared : after.held (home, owner) = before.held (home, owner) := by
      rw [withdrawn.held, if_neg fun same => apart (congrArg Prod.snd same)]
    refine ⟨?_, ?_, spared⟩
    · rw [withdrawn.led key led, if_pos rfl, bound?_of_seat seat, bound,
        Option.getD_some]
    · rw [spared, held_of_seat seat, Shard.isSome_held_iff]
      exact (coherent.shards seat).owner_stored bound

/-- A deletion through an alias: the key of the entry is absent afterwards, and
the entry that hides the other alias stays. -/
theorem deletion_withdraws_one_entry_overlaid :
    let before := operate Settings.twoShards
      (empty Settings.twoShards fun _ => []) overlaid
    Settings.twoShards.Valid ∧
      Ends (delete "t") before
        (fun existed after => existed = true ∧
          after.held (1, "b") = none ∧
          after.held (1, "a") = before.held (1, "a") ∧
          Ends (lookup Settings.twoShards "b")
            (after.withClock (.start .manual))
            (fun found _ => found = .absent) (fun _ _ => False))
        (fun _ _ => False) := by
  intro before
  have valid : Settings.twoShards.Valid := by decide
  have held : (before.held (before.place "t")).isSome := by decide +kernel
  have placed : before.place "t" = (1, "b") := by decide +kernel
  have led : before.place "b" = before.place "t" := by decide +kernel
  have unbound : before.bound? (before.route "t") "b" = none := by
    decide +kernel
  have readable : (Clock.start .manual).read.1 = .ok 0 := rfl
  refine ⟨valid, (deletion_withdraws_one_entry valid (fun _ => []) overlaid
    "t").weaken ?_ fun _ _ => id⟩
  rintro existed after ⟨answer, withdrawn, absent, _⟩
  refine ⟨answer.trans held, ?_, ?_, ?_⟩
  · rw [withdrawn.held, placed, if_pos rfl]
  · rw [withdrawn.held, placed, if_neg (by decide)]
  · exact absent "b" led (fun _ => unbound) _ 0 readable

/-- The deleted name reads the value of another entry afterwards, which has it
as an alias. -/
theorem deletion_uncovers_alias :
    let before := operate Settings.twoShards
      (empty Settings.twoShards fun _ => []) overlaid
    Settings.twoShards.Valid ∧
      result? (delete "a") before = some true ∧
        result? (lookup Settings.twoShards "a")
          (final (delete "a") before) =
            some (.found ⟨"b", ["a", "t"]⟩ false) := by
  decide +kernel

end ReadThrough.Cache
