import ReadThrough.Proofs.Cache.Absence
import ReadThrough.Proofs.Cache.Conflicts
import ReadThrough.Proofs.Cache.Holding

/-!
# What entries keep

An entry keeps what has been written until its key is written again, as long as
it is stored: its value, its deadline, and its aliases.  A cache `Retains` its
place.

Whether its names still lead to it depends on others.  A name is `Devoted` to a
key if it is none of the names that other keys are written with.  Such a name is
never hidden by an entry of its own and never bound to another key.  So it leads
to the entry if the last write of the key has asked for it, and it is absent if
that write has not.
-/

namespace ReadThrough

open Std (ExtTreeMap)

variable {Value : Type}

/-- An act writes a key. -/
def Act.Rewrites (key : String) : Act Value → Prop
  | .write draft => draft.key = key
  | _ => False

instance (key : String) (act : Act Value) : Decidable (act.Rewrites key) :=
  match act with
  | .write draft => inferInstanceAs (Decidable (draft.key = key))
  | .quiet _ => inferInstanceAs (Decidable False)
  | .delete _ => inferInstanceAs (Decidable False)
  | .sweep _ => inferInstanceAs (Decidable False)

/-- An act writes another key than the given one, under a name. -/
def Act.Diverts (key name : String) : Act Value → Prop
  | .write draft => draft.key ≠ key ∧ name ∈ draft.names
  | _ => False

instance (key name : String) (act : Act Value) :
    Decidable (act.Diverts key name) :=
  match act with
  | .write draft =>
      inferInstanceAs (Decidable (draft.key ≠ key ∧ name ∈ draft.names))
  | .quiet _ => inferInstanceAs (Decidable False)
  | .delete _ => inferInstanceAs (Decidable False)
  | .sweep _ => inferInstanceAs (Decidable False)

/-! ## What shards keep -/

/-- A shard keeps the entry of a key, apart from the marks of refreshing, and
its aliases. -/
structure Shard.Retains (key : String) (left right : Shard Value) : Prop where
  entry : right.entries[key]?.map Entry.settled =
    left.entries[key]?.map Entry.settled
  bound : ∀ name : String,
    right.keyOfAlias[name]? = some key ↔ left.keyOfAlias[name]? = some key

namespace Shard.Retains

variable {left middle right : Shard Value} {key : String}

theorem trans
    (first : Retains key left middle) (second : Retains key middle right) :
    Retains key left right where
  entry := second.entry.trans first.entry
  bound name := (second.bound name).trans (first.bound name)

theorem of_alike (alike : left.Alike right) : Retains key left right where
  entry := alike.entries key
  bound name := by rw [alike.keyOfAlias]

theorem eraseAll
    (coherent : left.Coherent) {keys : List String} (spared : key ∉ keys) :
    Retains key left (left.eraseAll keys) where
  entry := by rw [getElem?_entries_eraseAll, if_neg spared]
  bound name := by
    rw [keyOfAlias_eraseAll_eq_some_iff coherent]
    exact and_iff_left spared

theorem upsert
    (coherent : left.Coherent) {entry : Entry Value} {aliases : List String}
    (free : ∀ name ∈ aliases, name ≠ entry.key → ∀ owner : String,
      left.keyOfAlias[name]? = some owner → owner = entry.key)
    (apart : entry.key ≠ key) :
    Retains key left (left.upsert entry aliases) where
  entry := by
    rw [entries_upsert, ExtTreeMap.getElem?_insert]
    simp [apart]
  bound name := by
    rw [getElem?_keyOfAlias_upsert coherent]
    split
    next asked =>
      obtain ⟨member, other⟩ := mem_boundAliases.mp asked
      constructor
      · intro same
        exact absurd (Option.some.inj same) apart
      · intro bound
        exact absurd (free name member other key bound).symm apart
    next =>
      split
      next own =>
        constructor
        · intro none
          cases none
        · intro bound
          exact absurd (Option.some.inj (own.symm.trans bound)) apart
      next => rfl

end Shard.Retains

namespace Cache

/-! ## What acts make of a shard -/

/-- What an act makes of the shard at an index: entries go, or they stay, and a
write stores the entry of a key that is routed there.  The aliases that it asks
for belong to no other key. -/
inductive Reshapes
    (before : Cache Value) (index : Nat) (left : Shard Value) :
    Act Value → Shard Value → Prop
  | clears {act : Act Value} {right : Shard Value} {keys : List String}
      (alike : (left.eraseAll keys).Alike right) :
      Reshapes before index left act right
  | stores {draft : Draft Value} {roomy : Shard Value} {keys : List String}
      {entry : Entry Value}
      (home : before.route draft.key = index)
      (keyed : entry.key = draft.key)
      (alike : (left.eraseAll keys).Alike roomy)
      (free : ∀ name ∈ draft.aliases, name ≠ draft.key →
        ∀ owner : String, left.keyOfAlias[name]? = some owner →
          owner = draft.key) :
      Reshapes before index left (.write draft)
        (roomy.upsert entry draft.aliases)

section Reshapes

variable {settings : Settings} {before after : Cache Value} {index : Nat}
  {left right : Shard Value} {act : Act Value} {name key owner : String}

theorem Reshapes.of_alike (alike : left.Alike right) :
    Reshapes before index left act right :=
  .clears (show (left.eraseAll []).Alike right from alike)

/-- Every shard after an act has been made of the one in its place before. -/
theorem Effect.reshapes
    (effect : Effect settings before act after)
    (seat : after.shards[index]? = some right) :
    ∃ left, before.shards[index]? = some left ∧
      Reshapes before index left act right := by
  have kept : after.shards = before.shards →
      ∃ left, before.shards[index]? = some left ∧
        Reshapes before index left act right := by
    intro same
    exact ⟨right, same ▸ seat, .of_alike (.refl right)⟩
  have reseated : ∀ {place : Nat} {start : Cache Value} {old new : Shard Value},
      start.shards = before.shards → before.shards[place]? = some old →
        Reseats place new start after →
          (place = index → Reshapes before index old act new) →
            ∃ left, before.shards[index]? = some left ∧
              Reshapes before index left act right := by
    intro place start old new same oldSeat reseats made
    rw [reseats.shards_eq, same] at seat
    split at seat
    next home =>
      cases seat
      exact ⟨old, home ▸ oldSeat, made home.symm⟩
    next => exact ⟨right, seat, .of_alike (.refl right)⟩
  cases effect with
  | quiet alike =>
      obtain ⟨left, leftSeat, similar⟩ := alike.symm.shards seat
      exact ⟨left, leftSeat, .of_alike similar.symm⟩
  | removes oldSeat reseats =>
      exact reseated rfl oldSeat reseats fun _ => .clears (.refl _)
  | writes oldSeat outcome =>
      cases outcome with
      | conflict clash registers => exact kept registers.shards
      | dropped refuses claims => exact kept claims.shards
      | broken room harmless claims alike reseats =>
          exact reseated claims.shards oldSeat reseats fun _ => .clears alike
      | stored room claims reading refreshTime alike reseats =>
          exact reseated claims.shards oldSeat reseats fun home =>
            .stores home rfl alike claims.free

variable (reshapes : Reshapes before index left act right)

include reshapes

/-- Only a write stores keys, and only its own. -/
theorem Reshapes.stored (stored : name ∈ right.entries) :
    name ∈ left.entries ∨
      ∃ draft, act = .write draft ∧ draft.key = name ∧
        before.route draft.key = index := by
  cases reshapes with
  | clears alike =>
      exact Or.inl (Shard.mem_entries_eraseAll.mp
        (alike.mem_entries.mp stored)).1
  | @stores draft roomy keys entry home keyed alike free =>
      rw [Shard.entries_upsert, ExtTreeMap.mem_insert, keyed] at stored
      rcases stored with own | earlier
      · exact Or.inr ⟨draft, rfl, Std.compare_eq_iff_eq.mp own, home⟩
      · exact Or.inl (Shard.mem_entries_eraseAll.mp
          (alike.mem_entries.mp earlier)).1

/-- Only a write binds aliases, and only to its own key. -/
theorem Reshapes.bound
    (coherent : left.Coherent) (bound : right.keyOfAlias[name]? = some owner) :
    left.keyOfAlias[name]? = some owner ∨
      ∃ draft, act = .write draft ∧ draft.key = owner ∧
        name ∈ draft.aliases := by
  cases reshapes with
  | clears alike =>
      rw [alike.keyOfAlias] at bound
      exact Or.inl (Shard.keyOfAlias_of_eraseAll bound)
  | @stores draft roomy keys entry home keyed alike free =>
      rw [Shard.getElem?_keyOfAlias_upsert
        (alike.coherent (coherent.eraseAll keys)), keyed] at bound
      split at bound
      next asked =>
        exact Or.inr ⟨draft, rfl, Option.some.inj bound,
          (Shard.mem_boundAliases.mp asked).1⟩
      next =>
        split at bound
        · cases bound
        · rw [alike.keyOfAlias] at bound
          exact Or.inl (Shard.keyOfAlias_of_eraseAll bound)

/-- A key that is not written is kept if it is still stored. -/
theorem Reshapes.retains
    (coherent : left.Coherent) (spared : ¬ act.Rewrites key)
    (stays : key ∈ right.entries) :
    key ∈ left.entries ∧ Shard.Retains key left right := by
  have cleared : ∀ {keys : List String} {roomy : Shard Value},
      (left.eraseAll keys).Alike roomy → key ∈ roomy.entries →
        key ∈ left.entries ∧ Shard.Retains key left roomy := by
    intro keys roomy alike still
    obtain ⟨stored, unerased⟩ :=
      Shard.mem_entries_eraseAll.mp (alike.mem_entries.mp still)
    exact ⟨stored, (Shard.Retains.eraseAll coherent unerased).trans
      (.of_alike alike)⟩
  cases reshapes with
  | clears alike => exact cleared alike stays
  | @stores draft roomy keys entry home keyed alike free =>
      have apart : entry.key ≠ key := fun same =>
        spared (keyed.symm.trans same)
      rw [Shard.entries_upsert, ExtTreeMap.mem_insert] at stays
      have still : key ∈ roomy.entries := by
        rcases stays with own | still
        · exact absurd (Std.compare_eq_iff_eq.mp own) apart
        · exact still
      obtain ⟨stored, retains⟩ := cleared alike still
      refine ⟨stored, retains.trans (.upsert
        (alike.coherent (coherent.eraseAll keys)) ?_ apart)⟩
      intro name member other owner bound
      rw [alike.keyOfAlias] at bound
      rw [keyed] at other ⊢
      exact free name member other owner (Shard.keyOfAlias_of_eraseAll bound)

end Reshapes

/-! ## What caches keep -/

/-- A place goes on to show what it showed, and keeps its aliases. -/
structure Retains (place : Nat × String) (before after : Cache Value) :
    Prop where
  shown : ∀ instant, after.shown place instant = before.shown place instant
  bound : ∀ name, after.bound? place.1 name = some place.2 ↔
    before.bound? place.1 name = some place.2

theorem Retains.refl (place : Nat × String) (cache : Cache Value) :
    Retains place cache cache :=
  ⟨fun _ => rfl, fun _ => Iff.rfl⟩

theorem Retains.trans
    {place : Nat × String} {before middle after : Cache Value}
    (first : Retains place before middle)
    (second : Retains place middle after) : Retains place before after where
  shown instant := (second.shown instant).trans (first.shown instant)
  bound name := (second.bound name).trans (first.bound name)

section Retains

variable {settings : Settings} {cache before after : Cache Value}
  {act : Act Value} {index : Nat} {key : String}

/-- An entry whose key is not written is kept as long as it is stored. -/
theorem Effect.retains
    (effect : Effect settings before act after) (coherent : before.Coherent)
    (spared : ¬ act.Rewrites key) (stays : after.Stores index key) :
    before.Stores index key ∧ Retains (index, key) before after := by
  obtain ⟨right, rightSeat, stored⟩ := stays
  obtain ⟨left, leftSeat, reshapes⟩ := effect.reshapes rightSeat
  obtain ⟨earlier, retains⟩ :=
    reshapes.retains (coherent.shards leftSeat) spared stored
  refine ⟨⟨left, leftSeat, earlier⟩, fun instant => ?_, fun name => ?_⟩
  · rw [shown_of_seat rightSeat, shown_of_seat leftSeat]
    exact Shard.shown_of_settled retains.entry instant
  · rw [bound?_of_seat rightSeat, bound?_of_seat leftSeat]
    exact retains.bound name

theorem retains_follow
    (coherent : cache.Coherent) {acts : List (Act Value)}
    (spared : ∀ act ∈ acts, ¬ act.Rewrites key)
    (stays : (follow settings cache acts).Stores index key) :
    cache.Stores index key ∧
      Retains (index, key) cache (follow settings cache acts) := by
  induction acts generalizing cache with
  | nil => exact ⟨stays, .refl _ _⟩
  | cons act acts inductionHypothesis =>
      obtain ⟨first, rest⟩ := List.forall_mem_cons.mp spared
      obtain ⟨between, later⟩ := inductionHypothesis
        (coherent.after settings act) rest stays
      obtain ⟨stored, now⟩ :=
        (effect_of_act settings coherent act).retains coherent first between
      exact ⟨stored, now.trans later⟩

end Retains

/-! ## Devoted names -/

/-- Nobody but a key uses a name.  If the name is the key, then only the shard
that its text is hashed to stores it. -/
structure Devoted (cache : Cache Value) (key name : String) : Prop where
  stored : ∀ {index : Nat}, cache.Stores index name →
    name = key ∧ cache.route key = index
  bound : ∀ {index : Nat} {owner : String},
    cache.bound? index name = some owner → owner = key
  unrouted : name = key → cache.routes[key]? = none

section Devoted

variable {settings : Settings} {cache before after : Cache Value}
  {act : Act Value} {key name : String}

theorem devoted_empty
    (settings : Settings) (paddings : Nat → List Nat) (key name : String) :
    (empty settings paddings : Cache Value).Devoted key name where
  stored stored := absurd stored (not_stores_empty settings paddings _ name)
  bound {index owner} bound := by
    obtain ⟨shard, seat, found⟩ := Option.bind_eq_some_iff.mp bound
    simp only [empty, Array.getElem?_ofFn] at seat
    split at seat
    · cases seat
      simp [Shard.empty] at found
    · cases seat
  unrouted _ := by simp [empty]

theorem Devoted.withClock
    (devoted : cache.Devoted key name) (clock : Clock) :
    (cache.withClock clock).Devoted key name :=
  ⟨devoted.stored, devoted.bound, devoted.unrouted⟩

/-- A name stays devoted to a key as long as no other key is written under
it. -/
theorem Effect.devoted
    (effect : Effect settings before act after) (coherent : before.Coherent)
    (size : after.shards.size = before.shards.size)
    (undiverted : ¬ act.Diverts key name)
    (devoted : before.Devoted key name) : after.Devoted key name := by
  have own : ∀ {draft : Draft Value}, act = .write draft →
      name ∈ draft.names → draft.key = key := by
    rintro draft rfl member
    exact Decidable.by_contra fun apart => undiverted ⟨apart, member⟩
  have unrouted : name = key → after.routes[key]? = none := by
    rintro rfl
    rw [Option.eq_none_iff_forall_ne_some]
    intro index registered
    rcases effect.registered registered with known | ⟨draft, wrote, _, asked,
      apart⟩
    · cases (devoted.unrouted rfl).symm.trans known
    · exact apart (own wrote (List.mem_cons_of_mem _ asked)).symm
  refine ⟨?stored, ?bound, unrouted⟩
  case stored =>
    rintro index ⟨right, rightSeat, there⟩
    obtain ⟨left, leftSeat, reshapes⟩ := effect.reshapes rightSeat
    have earlier : name = key ∧ before.route key = index := by
      rcases reshapes.stored there with known | ⟨draft, wrote, same, home⟩
      · exact devoted.stored ⟨left, leftSeat, known⟩
      · have keyed := own wrote (same ▸ List.mem_cons_self)
        exact ⟨same.symm.trans keyed, keyed ▸ home⟩
    refine ⟨earlier.1, ?_⟩
    rw [route, unrouted earlier.1, size]
    rw [route, devoted.unrouted earlier.1] at earlier
    exact earlier.2
  case bound =>
    intro index owner bound
    obtain ⟨right, rightSeat, bound⟩ := Option.bind_eq_some_iff.mp bound
    obtain ⟨left, leftSeat, reshapes⟩ := effect.reshapes rightSeat
    rcases reshapes.bound (coherent.shards leftSeat) bound with
      known | ⟨draft, wrote, same, asked⟩
    · exact devoted.bound ((bound?_of_seat leftSeat name).trans known)
    · exact same.symm.trans (own wrote (List.mem_cons_of_mem _ asked))

theorem devoted_after
    (settings : Settings) (coherent : cache.Coherent)
    (undiverted : ¬ act.Diverts key name)
    (devoted : cache.Devoted key name) :
    (Cache.after settings cache act).Devoted key name :=
  (effect_of_act settings coherent act).devoted coherent
    (size_follow coherent [act]) undiverted devoted

theorem devoted_follow
    (settings : Settings) (coherent : cache.Coherent)
    {acts : List (Act Value)}
    (undiverted : ∀ act ∈ acts, ¬ act.Diverts key name)
    (devoted : cache.Devoted key name) :
    (follow settings cache acts).Devoted key name := by
  induction acts generalizing cache with
  | nil => exact devoted
  | cons act acts inductionHypothesis =>
      obtain ⟨first, rest⟩ := List.forall_mem_cons.mp undiverted
      exact inductionHypothesis (coherent.after settings act) rest
        (devoted_after settings coherent first devoted)

end Devoted

/-! ## The names of the last write -/

/-- An alias leads to its key unless it is stored itself. -/
theorem place_of_bound
    {cache : Cache Value} (coherent : cache.Coherent)
    {index : Nat} {name key : String} (free : ¬ cache.Stores index name)
    (bound : cache.bound? index name = some key) :
    cache.place name = (index, key) := by
  obtain ⟨shard, seat, found⟩ := Option.bind_eq_some_iff.mp bound
  obtain rfl : cache.route name = index :=
    route_of_registered (coherent.routed seat found)
  rw [stores_iff_of_seat seat] at free
  rw [place_of_seat seat, Shard.primary_of_free free, found,
    Option.getD_some]

section Devoted

variable {key name : String} {cache : Cache Value}

/-- A key that nobody else uses leads to its entry as long as it is stored. -/
theorem Devoted.place_key
    (devoted : cache.Devoted key key) {index : Nat}
    (stays : cache.Stores index key) : cache.place key = (index, key) := by
  obtain ⟨shard, seat, stored⟩ := stays
  obtain ⟨_, rfl⟩ := devoted.stored ⟨shard, seat, stored⟩
  rw [place_of_seat seat, Shard.primary_of_stored stored]

/-- A devoted name that is not bound at the key's place leads to nothing. -/
theorem Devoted.unheld
    (devoted : cache.Devoted key name) (rooted : cache.Devoted key key)
    (coherent : cache.Coherent) (apart : name ≠ key) {index : Nat}
    (stays : cache.Stores index key)
    (unbound : cache.bound? index name ≠ some key) :
    cache.held (cache.place name) = none := by
  obtain ⟨shard, seat⟩ := coherent.seat name
  have free : name ∉ shard.entries := fun stored =>
    apart (devoted.stored ⟨shard, seat, stored⟩).1
  have nothing : shard.keyOfAlias[name]? = none := by
    rw [Option.eq_none_iff_forall_ne_some]
    intro owner found
    have bound : cache.bound? (cache.route name) name = some owner :=
      (bound?_of_seat seat name).trans found
    obtain rfl := devoted.bound bound
    -- Its key is stored there, and nowhere but at its place.
    have stored : cache.Stores (cache.route name) owner :=
      ⟨shard, seat, (coherent.shards seat).owner_stored found⟩
    have home : cache.route name = index :=
      (rooted.stored stored).2.symm.trans (rooted.stored stays).2
    exact unbound (home ▸ bound)
  rw [place_of_seat seat, held_of_seat seat, Shard.held_eq_none_iff,
    Shard.primary_of_free free, nothing]
  exact free

end Devoted

section Written

variable {settings : Settings} {draft : Draft Value} {now : Instant}
  {before after later : Cache Value} {name : String}

/-- A write that returns is written if its key is stored afterwards. -/
theorem ends_writeDraft_stored
    (coherent : before.Coherent) (draft : Draft Value) :
    Ends (writeDraft settings draft) before
      (fun _ after => after.Stores (before.route draft.key) draft.key →
        ∃ now, Written settings draft now before after)
      (fun _ _ => True) := by
  by_cases drops : before.Drops settings draft.key
  · obtain ⟨shard, seat⟩ := coherent.seat draft.key
    refine (ends_write seat).weaken ?_ fun _ _ _ => trivial
    intro evicted after outcome stays
    cases outcome with
    | dropped refuses claims =>
        have same : after.shards = before.shards := claims.shards
        rw [stores_iff_of_seat (same ▸ seat)] at stays
        exact absurd stays (Shard.isFullFor_iff.mp refuses.1).1
    | stored room => exact absurd ((drops_iff_of_seat seat).mp drops) room
  · exact (ends_writeDraft_written coherent draft drops).weaken
      (fun _ _ written _ => written) fun _ _ => id

variable (written : Written settings draft now before after)

include written

/-- The aliases of a key that has been written are those that the write has
asked for, as far as nobody else uses them. -/
theorem Written.bound_iff
    (coherent : after.Coherent) (devoted : before.Devoted draft.key name)
    (apart : name ≠ draft.key) :
    after.bound? (before.route draft.key) name = some draft.key ↔
      name ∈ draft.aliases := by
  constructor
  · intro bound
    by_cases asked : name ∈ draft.aliases
    · exact asked
    · exact absurd rfl ((written.binds name draft.key asked).mp bound).2.1
  · intro asked
    have unhidden : ¬ before.Stores (before.route draft.key) name :=
      fun stored => apart (devoted.stored stored).1
    have leads := written.asked name asked apart
    rw [if_neg fun hides => unhidden hides.1] at leads
    exact (bound?_of_place coherent leads apart).2.2

variable (coherent : after.Coherent)
  (retains : Retains (before.route draft.key, draft.key) after later)
  (stays : later.Stores (before.route draft.key) draft.key)
  (early : before.Devoted draft.key name)
  (late : later.Devoted draft.key name)

include coherent retains stays early late

/-- All names of the last write of a key lead to its entry as long as it is
stored, if nobody else uses them. -/
theorem Written.place_later
    (coherentLater : later.Coherent) (asked : name ∈ draft.names) :
    later.place name = (before.route draft.key, draft.key) := by
  by_cases own : name = draft.key
  · subst own
    exact late.place_key stays
  · have named : name ∈ draft.aliases :=
      (List.mem_cons.mp asked).resolve_left own
    exact place_of_bound coherentLater
      (fun stored => own (late.stored stored).1)
      ((retains.bound name).mpr
        ((written.bound_iff coherent early own).mpr named))

/-- They read what was written until it expires. -/
theorem Written.reads_later
    (coherentLater : later.Coherent) (asked : name ∈ draft.names)
    {instant : Instant} (decided : later.deciding name = .ok instant) :
    Reads settings later name
      (if deadline now settings.timeToLive < instant then none
        else some draft.value) := by
  have reads := reads_place settings coherentLater decided
  rwa [written.place_later coherent retains stays early late coherentLater
    asked, retains.shown, written.own] at reads

/-- A name that the last write of a key has not asked for leads to nothing, if
nobody else uses it. -/
theorem Written.unheld_later
    (coherentLater : later.Coherent)
    (rooted : later.Devoted draft.key draft.key)
    (unasked : name ∉ draft.names) :
    later.held (later.place name) = none := by
  obtain ⟨apart, unnamed⟩ := not_or.mp (mt List.mem_cons.mpr unasked)
  refine late.unheld rooted coherentLater apart stays fun bound => ?_
  exact unnamed ((written.bound_iff coherent early apart).mp
    ((retains.bound name).mp bound))

end Written

end Cache

end ReadThrough
