import ReadThrough.Proofs.Cache.Absence
import ReadThrough.Proofs.Cache.Chores
import ReadThrough.Proofs.Cache.Interchange

/-!
# What a response leaves

A response is stored request by request, and each request leaves a `Deposit`
under its name.  A value replaces the entry that the name leads to.  A missing
record is written under the name itself; if that is the key of an entry, its
aliases stand for themselves again, and if it is an alias, it is one no longer.

A deposit strikes a name that it is made under, and the names that lead where it
is made.  The last deposit that strikes a name is decisive: it tells what the
name reads when all have been made.
-/

namespace ReadThrough

open Std (ExtTreeMap)

/-! ## Clocks that stand -/

namespace Clock

variable {clock later : Clock} {now : Instant}

/-- A reading leaves a clock that shows the same. -/
theorem Steady.of_read
    (steady : clock.Steady) (reading : clock.read = (.ok now, later)) :
    later.Steady ∧ later.read.1 = .ok now := by
  have again : clock.read.2 = later := congrArg Prod.snd reading
  have shows : clock.read.1 = .ok now := congrArg Prod.fst reading
  have next := steady 1
  rw [skip, skip, again, shows] at next
  exact ⟨steady.of_inStep (again ▸ steady.inStep), next⟩

end Clock

variable {Value : Type}

namespace Shard

variable {shard : Shard Value} {name : String}

/-- A value that is stored by name takes over the aliases of the key that the
name stands for. -/
theorem binding_getD (coherent : shard.Coherent) (name : String) :
    (shard.binding name).getD (name, []) =
      (shard.primary name, shard.aliases (shard.primary name)) := by
  rw [binding, resolve]
  cases found : shard.entries[shard.primary name]? with
  | some entry => rw [Option.map_some, Option.getD_some, coherent.keyed found]
  | none =>
      have nothing : shard.primary name ∉ shard.entries := fun stored => by
        rw [ExtTreeMap.getElem?_eq_some_getElem stored] at found
        cases found
      have itself := primary_of_nothing coherent nothing
      have bare : shard.aliases name = [] := by
        rw [aliases]
        cases listed : shard.aliasesOfKey[name]? with
        | none => rfl
        | some list =>
            exact absurd (coherent.listed listed).1 (itself ▸ nothing)
      rw [Option.map_none, Option.getD_none, itself, bare]

/-- What a name stands for stands for itself. -/
theorem primary_primary (coherent : shard.Coherent) (name : String) :
    shard.primary (shard.primary name) = shard.primary name := by
  by_cases stored : shard.primary name ∈ shard.entries
  · exact primary_of_stored stored
  · have itself := primary_of_nothing coherent stored
    rw [itself, itself]

end Shard

namespace Cache

variable {settings : Settings} {cache before after : Cache Value}
  {name other : String} {now : Instant}

/-- Where the clock stands, that is the reading that decides a lookup. -/
theorem deciding_of_steady
    (steady : cache.clock.Steady) (shows : cache.clock.read.1 = .ok now)
    (name : String) : cache.deciding name = .ok now := by
  rw [deciding]
  cases reading : cache.clock.read with
  | mk first later =>
      rw [reading] at shows
      cases shows
      dsimp only
      rw [(steady.of_read reading).2]
      exact ite_self _

/-! ## Where names lead -/

/-- The key that a name leads to is routed where the name is. -/
def AtHome (cache : Cache Value) (name : String) : Prop :=
  cache.route (cache.place name).2 = cache.route name

instance (cache : Cache Value) (name : String) :
    Decidable (cache.AtHome name) :=
  inferInstanceAs (Decidable (_ = _))

/-- A name that is led to stands for itself. -/
theorem place_of_led
    (coherent : cache.Coherent)
    (leads : cache.place name = (cache.route other, other)) :
    cache.place other = cache.place name := by
  obtain ⟨shard, seat⟩ := coherent.seat name
  rw [place_of_seat seat] at leads
  obtain ⟨routed, rfl⟩ := Prod.mk.inj leads
  rw [routed] at seat
  rw [place_of_seat seat, place_of_seat (routed ▸ seat), routed,
    Shard.primary_primary (coherent.shards seat)]

section ByName

variable [Keyed Value]

/-- What is written of a value that is stored by name. -/
theorem draft_byName
    (coherent : cache.Coherent) {shard : Shard Value}
    (seat : cache.shards[cache.route name]? = some shard) (value : Value) :
    (Writing.fetched .byName name value).draft cache =
      ⟨shard.primary name, some value,
        shard.aliases (shard.primary name)⟩ := by
  rw [Writing.draft, seat, Option.bind_some,
    Shard.binding_getD (coherent.shards seat)]

/-- A value can be stored by name if the key is at home. -/
theorem AtHome.not_conflicts
    (atHome : cache.AtHome name) (coherent : cache.Coherent) (value : Value) :
    ¬ cache.Conflicts ((Writing.fetched .byName name value).draft cache) := by
  obtain ⟨shard, seat⟩ := coherent.seat name
  rw [AtHome, place_of_seat seat] at atHome
  rw [draft_byName coherent seat]
  rintro ⟨known, listed, _, clash⟩
  have bound := (coherent.shards seat).inverse.mpr listed
  dsimp only at clash
  rw [atHome, clashes_iff_of_seat seat, coherent.routed seat bound,
    bound] at clash
  rcases clash with ⟨index, same, apart⟩ | ⟨owner, same, apart⟩
  · exact apart (Option.some.inj same).symm
  · exact apart (Option.some.inj same).symm

end ByName

/-! ## Writes that find room -/

/-- A write finds room for its key: it is not dropped, and nothing has to be
evicted for it. -/
def FindsRoom (settings : Settings) (cache : Cache Value) : Act Value → Prop
  | .write draft =>
      ¬ cache.Drops settings draft.key ∧ cache.evictees settings draft.key = []
  | _ => True

instance (settings : Settings) (cache : Cache Value) :
    (act : Act Value) → Decidable (cache.FindsRoom settings act)
  | .write _ => inferInstanceAs (Decidable (_ ∧ _))
  | .quiet _ => isTrue trivial
  | .delete _ => isTrue trivial
  | .sweep _ => isTrue trivial

/-- A write that finds room and no conflict, at a clock that can be read, stores
its entry and changes no other place. -/
theorem written_of_findsRoom
    (coherent : before.Coherent)
    (expressible : ∀ window ∈ settings.refresh,
      window.earliest ≤ window.latest ∧ window.latest ≤ Duration.longest)
    (shows : before.clock.read.1 = .ok now) {draft : Draft Value}
    (room : before.FindsRoom settings (.write draft))
    (agreed : ¬ before.Conflicts draft) :
    returns ((Act.write draft).action settings) before ∧
      Written settings draft now before
        (Cache.after settings before (.write draft)) := by
  have returned : returns (writeDraft settings draft) before = true := by
    refine returns_iff_ends.mpr
      ((ends_writeDraft_unstored coherent expressible draft).weaken
        (fun _ _ _ => trivial) fun fault next ended => ?_)
    rcases ended with ⟨_, conflicts, _⟩ | ⟨_, _, _, stopped⟩
    · exact agreed conflicts
    · rw [stopped.clock] at shows
      cases shows
  obtain ⟨instant, written⟩ :=
    final_of_returns returned (ends_writeDraft_written coherent draft room.1)
  have same : instant = now := by
    rw [written.reading] at shows
    exact Except.ok.inj shows
  have left : Cache.after settings before (.write draft) =
      final (writeDraft settings draft) before := final_discard _ _
  rw [left, ← same]
  exact ⟨(returns_discard _ _).trans returned, written⟩

/-- Where nothing had to be evicted, the own place of a write is the only one
that has changed. -/
theorem Written.shown_eq
    {draft : Draft Value} (written : Written settings draft now before after)
    (room : before.evictees settings draft.key = []) (place : Nat × String) :
    after.shown place now =
      if place = (before.route draft.key, draft.key) then some draft.value
      else before.shown place now := by
  split
  next own =>
    rw [own, written.own]
    exact if_neg (Nat.not_lt.mpr (le_deadline now _))
  next apart =>
    rw [written.others place apart]
    exact if_neg fun evicted => List.not_mem_nil (room ▸ evicted.2)

end Cache

/-! ## Deposits -/

/-- What a request leaves under its name: the value that it was answered with,
or a missing record. -/
structure Deposit (Value : Type) where
  name : String
  value : Option Value

namespace Deposit

variable {settings : Settings} {deposit : Deposit Value}
  {before after : Cache Value} {name other : String} {now : Instant}

/-- Where a deposit is made. -/
def target (cache : Cache Value) (deposit : Deposit Value) : Nat × String :=
  match deposit.value with
  | some _ => cache.place deposit.name
  | none => (cache.route deposit.name, deposit.name)

/-- A deposit is made under a name or where the name leads. -/
def Strikes
    (cache : Cache Value) (deposit : Deposit Value) (name : String) : Prop :=
  name = deposit.name ∨ cache.place name = deposit.target cache

instance (cache : Cache Value) (deposit : Deposit Value) (name : String) :
    Decidable (deposit.Strikes cache name) :=
  inferInstanceAs (Decidable (_ ∨ _))

/-- What a name that it strikes reads after a deposit.  Who stood for the name of
a missing record stands for itself, and finds nothing. -/
def shownUnder (name : String) (deposit : Deposit Value) :
    Option (Option Value) :=
  match deposit.value with
  | some value => some (some value)
  | none => if name = deposit.name then some none else none

/-- A deposit has been made, and nothing else has changed. -/
structure Made (deposit : Deposit Value) (now : Instant)
    (before after : Cache Value) : Prop where
  reading : before.clock.read = (.ok now, after.clock)
  shown : ∀ place, after.shown place now =
    if place = deposit.target before then some deposit.value
    else before.shown place now
  routes : ∀ name, after.route name = before.route name
  /-- Only missing records change where names lead. -/
  places : ∀ name, after.place name =
    if deposit.value = none ∧ deposit.Strikes before name then
      (before.route name, name)
    else before.place name

/-- A missing record that has been written is a deposit. -/
theorem made_of_missing
    (written : Cache.Written settings ⟨name, none, []⟩ now before after)
    (room : before.evictees settings name = []) :
    Made ⟨name, none⟩ now before after := by
  refine ⟨written.reading, written.shown_eq room, fun other => ?_,
    fun other => ?_⟩
  · rw [written.routes]
    split
    next member => rw [List.mem_singleton.mp member]
    next => rfl
  · by_cases own : other = name
    · rw [if_pos ⟨rfl, Or.inl own⟩, own, written.key]
    · rw [written.spared other (fun member => own (List.mem_singleton.mp member))
        fun evicted => List.not_mem_nil (room ▸ evicted.2)]
      by_cases leads : before.place other = (before.route name, name)
      · rw [if_pos leads, if_pos ⟨rfl, Or.inr leads⟩]
        exact Prod.ext (congrArg Prod.fst leads).symm rfl
      · rw [if_neg leads, if_neg]
        rintro ⟨_, same | leads'⟩
        · exact own same
        · exact leads leads'

variable [Keyed Value]

/-- A value that has been written for the key that its name leads to is a
deposit. -/
theorem made_of_value
    (coherent : before.Coherent) (atHome : before.AtHome name) {value : Value}
    (written : Cache.Written settings
      ((Writing.fetched .byName name value).draft before) now before
        after)
    (room : before.evictees settings
      ((Writing.fetched .byName name value).draft before).key = []) :
    Made ⟨name, some value⟩ now before after := by
  obtain ⟨shard, seat⟩ := coherent.seat name
  have inner := coherent.shards seat
  have placed := Cache.place_of_seat seat
  rw [Cache.draft_byName coherent seat] at written room
  rw [Cache.AtHome, placed] at atHome
  dsimp only at atHome room
  have bound : ∀ other ∈ shard.aliases (shard.primary name),
      shard.keyOfAlias[other]? = some (shard.primary name) ∧
        before.route other = before.route name := by
    intro other listed
    have binds := inner.inverse.mpr listed
    exact ⟨binds, Cache.route_of_registered (coherent.routed seat binds)⟩
  refine ⟨written.reading, fun place => ?shown, fun other => ?routes,
    fun other => ?places⟩
  case shown =>
    have shown := written.shown_eq room place
    dsimp only at shown
    rw [shown, atHome, target, placed]
  case routes =>
    rw [written.routes]
    dsimp only
    rw [atHome]
    split
    next member =>
      rcases List.mem_cons.mp member with rfl | listed
      · exact atHome.symm
      · exact (bound other listed).2.symm
    next => rfl
  case places =>
    rw [if_neg fun missing => Option.some_ne_none value missing.1]
    by_cases own : other = shard.primary name
    · have led := Cache.place_of_led coherent
        (placed.trans (Prod.ext atHome.symm rfl))
      have key := written.key
      dsimp only at key
      rw [own, key, led, placed, atHome]
    by_cases listed : other ∈ shard.aliases (shard.primary name)
    · obtain ⟨binds, routed⟩ := bound other listed
      have asked := written.asked other listed own
      dsimp only at asked
      have stays : before.Stores (before.route name) other ↔
          other ∈ shard.entries := Cache.stores_iff_of_seat seat
      rw [asked, atHome, Cache.place_of_seat (routed ▸ seat), routed]
      by_cases stored : other ∈ shard.entries
      · rw [if_pos ⟨stays.mpr stored, fun evicted => List.not_mem_nil
          (room ▸ evicted.2)⟩, Shard.primary_of_stored stored]
      · rw [if_neg fun kept => stored (stays.mp kept.1),
          Shard.primary_of_free stored, binds, Option.getD_some]
    · have unnamed : other ∉ shard.primary name ::
          shard.aliases (shard.primary name) := fun member =>
        (List.mem_cons.mp member).elim own listed
      rw [written.spared other unnamed fun evicted => List.not_mem_nil
        (room ▸ evicted.2)]
      apply if_neg
      dsimp only
      rw [atHome]
      intro leads
      obtain ⟨_, _, binds⟩ := Cache.bound?_of_place coherent leads own
      rw [Cache.bound?_of_seat seat] at binds
      exact listed (inner.inverse.mp binds)

omit [Keyed Value] in
/-- The name of a deposit leads where the names that it strikes do. -/
theorem Strikes.place_eq
    (strikes : deposit.Strikes before name) (coherent : before.Coherent) :
    before.place deposit.name = before.place name := by
  rcases strikes with rfl | leads
  · rfl
  · rw [target] at leads
    split at leads
    · exact leads.symm
    · exact Cache.place_of_led coherent leads

section Made

variable (made : deposit.Made now before after)

include made

omit [Keyed Value] in
theorem Made.atHome (atHome : before.AtHome name) : after.AtHome name := by
  rw [Cache.AtHome] at atHome ⊢
  rw [made.routes, made.routes, made.places]
  split
  · rfl
  · exact atHome

omit [Keyed Value] in
/-- A deposit shows under the names that it strikes, and other names read what
they did before. -/
theorem Made.shown_place (coherent : before.Coherent) (name : String) :
    after.shown (after.place name) now =
      if deposit.Strikes before name then deposit.shownUnder name
      else before.shown (before.place name) now := by
  have moved := made.places name
  obtain ⟨own, value⟩ := deposit
  cases value with
  | some value =>
      rw [if_neg fun missing => Option.some_ne_none value missing.1] at moved
      rw [made.shown, moved]
      by_cases leads : before.place name = before.place own
      · exact (if_pos leads).trans (if_pos (Or.inr leads)).symm
      · refine (if_neg leads).trans (if_neg ?_).symm
        rintro (rfl | same)
        · exact leads rfl
        · exact leads same
  | none =>
      have place : target before ⟨own, none⟩ = (before.route own, own) := rfl
      by_cases strikes : Strikes before ⟨own, none⟩ name
      · rw [if_pos ⟨rfl, strikes⟩] at moved
        rw [made.shown, moved, place, if_pos strikes, shownUnder]
        dsimp only
        by_cases same : name = own
        · rw [same, if_pos rfl, if_pos rfl]
        · -- Whoever stood for the name finds nothing of its own.
          obtain ⟨home, vacant, _⟩ := Cache.bound?_of_place coherent
            (strikes.resolve_left same) same
          rw [if_neg fun equal => same (congrArg Prod.snd equal), home,
            Cache.shown_of_not_stores vacant, if_neg same]
      · rw [if_neg fun struck => strikes struck.2] at moved
        rw [made.shown, moved, if_neg strikes, if_neg]
        exact fun leads => strikes (Or.inr leads)

omit [Keyed Value] in
/-- A deposit makes no two names lead to the same key. -/
theorem Made.apart
    (coherent : before.Coherent)
    (apart : before.place other = before.place name → other = name)
    (leads : after.place other = after.place name) : other = name := by
  rw [made.places, made.places] at leads
  split at leads
  · split at leads
    · exact congrArg Prod.snd leads
    · exact apart (Cache.place_of_led coherent leads.symm)
  · split at leads
    · exact apart (Cache.place_of_led coherent leads).symm
    · exact apart leads

end Made

/-- The chores that make a deposit. -/
def chores (deposit : Deposit Value) : List (Chore Value) :=
  match deposit.value with
  | some value => Cache.fetchedChores .byName deposit.name value
  | none => [fun _ => .write ⟨deposit.name, none, []⟩]

/-- The cache after a deposit. -/
def leaves (settings : Settings) (cache : Cache Value)
    (deposit : Deposit Value) : Cache Value :=
  Cache.follow settings cache
    (Cache.carryOut settings deposit.chores cache)

/-- A deposit is made when the clock can be read and the write finds room, a
value only under a name that leads to a key that is at home. -/
theorem made_of_roomy
    (coherent : before.Coherent)
    (expressible : ∀ window ∈ settings.refresh,
      window.earliest ≤ window.latest ∧ window.latest ≤ Duration.longest)
    (shows : before.clock.read.1 = .ok now)
    (atHome : deposit.value ≠ none → before.AtHome deposit.name)
    (roomy : Cache.Each settings Cache.FindsRoom before
      (Cache.carryOut settings deposit.chores before)) :
    Cache.completes settings deposit.chores before = true ∧
      deposit.Made now before (deposit.leaves settings before) := by
  obtain ⟨name, value⟩ := deposit
  cases value with
  | none =>
      have agreed : ¬ before.Conflicts ⟨name, none, []⟩ := by
        rintro ⟨_, impossible, _⟩
        cases impossible
      obtain ⟨returned, written⟩ := Cache.written_of_findsRoom coherent
        expressible shows roomy.1 agreed
      have listed : Cache.carryOut settings (chores ⟨name, none⟩) before =
          [.write ⟨name, none, []⟩] := by
        rw [chores, Cache.carryOut, Cache.carryOut, ite_self]
      rw [leaves, listed]
      refine ⟨?_, made_of_missing written roomy.1.2⟩
      rw [chores, Cache.completes, returned, Cache.completes, Bool.and_true]
  | some value =>
      obtain ⟨routed, left⟩ := Cache.route_act settings coherent name
      have noted : (before.noted (.routed (before.route name))).Coherent :=
        coherent.of_eq rfl rfl
      have two : chores ⟨name, some value⟩ =
          [fun _ => .quiet (.route name), fun cache =>
            .write ((Writing.fetched .byName name value).draft cache)] := rfl
      have listed : Cache.carryOut settings (chores ⟨name, some value⟩)
          before =
            [.quiet (.route name), .write ((Writing.fetched .byName name
              value).draft (before.noted (.routed (before.route name))))] := by
        rw [two, Cache.carryOut, if_pos routed, left, Cache.carryOut,
          Cache.carryOut, ite_self]
      rw [listed, Cache.Each, left, Cache.Each] at roomy
      have home : before.AtHome name := atHome (Option.some_ne_none value)
      have homeNoted : (before.noted
          (.routed (before.route name))).AtHome name := home
      have agreed := homeNoted.not_conflicts noted value
      obtain ⟨returned, written⟩ := Cache.written_of_findsRoom noted
        expressible shows roomy.2.1 agreed
      have made := made_of_value noted home written roomy.2.1.2
      rw [leaves, listed, Cache.follow_cons, left]
      refine ⟨?_, made.reading, made.shown, made.routes, made.places⟩
      rw [two, Cache.completes, routed, left, Cache.completes, returned,
        Cache.completes]
      rfl

/-! ## Deposits in turn -/

/-- The last of many deposits that strikes a name, when they are made in
turn. -/
def decisive? (settings : Settings) (name : String) :
    Cache Value → List (Deposit Value) → Option (Deposit Value)
  | _, [] => none
  | cache, deposit :: deposits =>
      (decisive? settings name (deposit.leaves settings cache) deposits).or
        (if deposit.Strikes cache name then some deposit else none)

/-- Deposits are made in turn, and the clock shows the same all the while. -/
def AllMade (settings : Settings) (now : Instant) :
    Cache Value → List (Deposit Value) → Prop
  | _, [] => True
  | cache, deposit :: deposits =>
      deposit.Made now cache (deposit.leaves settings cache) ∧
        AllMade settings now (deposit.leaves settings cache) deposits

theorem coherent_leaves
    (coherent : before.Coherent) (settings : Settings)
    (deposit : Deposit Value) : (deposit.leaves settings before).Coherent :=
  coherent.follow settings _

theorem mem_of_decisive?
    {deposits : List (Deposit Value)} {cache : Cache Value}
    (decides : decisive? settings name cache deposits = some deposit) :
    deposit ∈ deposits := by
  induction deposits generalizing cache with
  | nil => cases decides
  | cons head deposits inductionHypothesis =>
      rw [decisive?, Option.or_eq_some_iff] at decides
      rcases decides with later | ⟨_, first⟩
      · exact List.mem_cons_of_mem _ (inductionHypothesis later)
      · split at first
        · cases first
          exact List.mem_cons_self
        · cases first

/-- A deposit strikes the name that it is made under, so there is one that is
decisive for that name. -/
theorem exists_decisive?
    {deposits : List (Deposit Value)} (member : deposit ∈ deposits)
    (settings : Settings) (cache : Cache Value) :
    ∃ last, decisive? settings deposit.name cache deposits = some last := by
  induction deposits generalizing cache with
  | nil => cases member
  | cons head deposits inductionHypothesis =>
      rw [decisive?]
      rcases List.mem_cons.mp member with rfl | later
      · have strikes : deposit.Strikes cache deposit.name := Or.inl rfl
        rw [if_pos strikes]
        cases decisive? settings deposit.name (deposit.leaves settings cache)
          deposits with
        | none => exact ⟨deposit, rfl⟩
        | some last => exact ⟨last, rfl⟩
      · obtain ⟨last, decides⟩ :=
          inductionHypothesis later (head.leaves settings cache)
        rw [decides]
        exact ⟨last, rfl⟩

section AllMade

variable {deposits : List (Deposit Value)} {cache : Cache Value}

/-- While the clock stands, deposits are made in turn if all writes find room and
values are left only under names that lead to keys that are at home. -/
theorem allMade_of_roomy
    (coherent : cache.Coherent)
    (expressible : ∀ window ∈ settings.refresh,
      window.earliest ≤ window.latest ∧ window.latest ≤ Duration.longest)
    (steady : cache.clock.Steady) (shows : cache.clock.read.1 = .ok now)
    (homes : ∀ deposit ∈ deposits, deposit.value ≠ none →
      cache.AtHome deposit.name)
    (roomy : Cache.Each settings Cache.FindsRoom cache
      (Cache.carryOut settings (deposits.flatMap chores) cache)) :
    let last := Cache.follow settings cache
      (Cache.carryOut settings (deposits.flatMap chores) cache)
    Cache.completes settings (deposits.flatMap chores) cache = true ∧
      AllMade settings now cache deposits ∧
        last = deposits.foldl (leaves settings) cache ∧
          last.clock.Steady ∧ last.clock.read.1 = .ok now := by
  induction deposits generalizing cache with
  | nil => exact ⟨rfl, trivial, rfl, steady, shows⟩
  | cons deposit deposits inductionHypothesis =>
      obtain ⟨home, others⟩ := List.forall_mem_cons.mp homes
      rw [List.flatMap_cons, Cache.carryOut_append,
        Cache.each_append] at roomy
      obtain ⟨done, made⟩ :=
        made_of_roomy coherent expressible shows home roomy.1
      rw [if_pos done] at roomy
      obtain ⟨steadily, again⟩ := steady.of_read made.reading
      obtain ⟨rest, allMade, left, stands⟩ := inductionHypothesis
        (coherent_leaves coherent settings deposit) steadily again
        (fun other member given => made.atHome (others other member given))
        roomy.2
      rw [List.flatMap_cons, Cache.carryOut_append, Cache.completes_append,
        if_pos done, Cache.follow_append, done, Bool.true_and]
      exact ⟨rest, ⟨made, allMade⟩, left, stands⟩

variable (allMade : AllMade settings now cache deposits)
  (coherent : cache.Coherent)

include allMade coherent

/-- What a name reads after many deposits is up to the last one that strikes
it. -/
theorem AllMade.shown_place (name : String) :
    let last := deposits.foldl (leaves settings) cache
    last.shown (last.place name) now =
      match decisive? settings name cache deposits with
      | some deposit => deposit.shownUnder name
      | none => cache.shown (cache.place name) now := by
  induction deposits generalizing cache with
  | nil => rfl
  | cons deposit deposits inductionHypothesis =>
      obtain ⟨made, rest⟩ := allMade
      have later := inductionHypothesis rest
        (coherent_leaves coherent settings deposit)
      dsimp only at later ⊢
      rw [List.foldl_cons, later, decisive?]
      cases decisive? settings name (deposit.leaves settings cache)
        deposits with
      | some last => rfl
      | none =>
          rw [Option.none_or]
          dsimp only
          rw [made.shown_place coherent name]
          split
          · rfl
          · rfl

/-- If no other name of the deposits leads where a name does, then only deposits
under the name itself are decisive for it. -/
theorem AllMade.name_of_decisive?
    (alone : ∀ deposit ∈ deposits,
      cache.place deposit.name = cache.place name → deposit.name = name)
    (decides : decisive? settings name cache deposits = some deposit) :
    deposit.name = name := by
  induction deposits generalizing cache with
  | nil => cases decides
  | cons head deposits inductionHypothesis =>
      obtain ⟨made, rest⟩ := allMade
      obtain ⟨first, others⟩ := List.forall_mem_cons.mp alone
      rw [decisive?, Option.or_eq_some_iff] at decides
      rcases decides with later | ⟨_, struck⟩
      · exact inductionHypothesis rest
          (coherent_leaves coherent settings head)
          (fun other member => made.apart coherent (others other member))
          later
      · split at struck
        next strikes =>
          cases struck
          exact first (strikes.place_eq coherent)
        next => cases struck

end AllMade

end Deposit

end ReadThrough
