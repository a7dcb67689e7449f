import ReadThrough.Proofs.Cache.Coherence

/-!
# The homes of keys

A key is at home in the shard that it is routed to.  A cache is `Homed` when
every stored key is at home.

An alias that is registered late can move a name away from the shard that
already stores an entry under it: the act `Displaces` the key.  Nothing else
does: the caches of a run are all homed exactly when no act of it displaces a
key.  The keys of a homed cache are `Orderly`: none is stored twice or listed
twice, and every stored entry can be read and deleted through its key.
-/

namespace ReadThrough.Cache

open Std (ExtTreeMap)
open Relation (ReflTransGen)

variable {Value : Type}

/-- Every stored key is routed to the shard that stores it. -/
def Homed (cache : Cache Value) : Prop :=
  ∀ index key, cache.Stores index key → cache.route key = index

/-- A name that one shard stores as a key is registered on another shard. -/
def Displaces (before after : Cache Value) : Prop :=
  ∃ index key place, before.Stores index key ∧ before.routes[key]? = none ∧
    after.routes[key]? = some place ∧ place ≠ index

theorem displaces_iff {before after : Cache Value} :
    Displaces before after ↔
      ∃ route ∈ after.routes.toList, ∃ index < before.shards.size,
        before.Stores index route.1 ∧ before.routes[route.1]? = none ∧
          route.2 ≠ index := by
  constructor
  · rintro ⟨index, key, place, stored, vacant, taken, apart⟩
    obtain ⟨shard, seat, _⟩ := id stored
    obtain ⟨inside, _⟩ := Array.getElem?_eq_some_iff.mp seat
    exact ⟨(key, place),
      ExtTreeMap.mem_toList_iff_getElem?_eq_some.mpr taken,
      index, inside, stored, vacant, apart⟩
  · rintro ⟨⟨key, place⟩, listed, index, _, stored, vacant, apart⟩
    have taken := ExtTreeMap.mem_toList_iff_getElem?_eq_some.mp listed
    exact ⟨index, key, place, stored, vacant, taken, apart⟩

instance (before after : Cache Value) : Decidable (Displaces before after) :=
  decidable_of_iff _ displaces_iff.symm

/-- No act of a run displaces a key. -/
def Undisplaced (settings : Settings) :
    Cache Value → List (Act Value) → Prop
  | _, [] => True
  | cache, act :: acts =>
      ¬ Displaces cache (after settings cache act) ∧
        Undisplaced settings (after settings cache act) acts

instance decidableUndisplaced (settings : Settings) :
    (cache : Cache Value) → (acts : List (Act Value)) →
      Decidable (Undisplaced settings cache acts)
  | _, [] => inferInstanceAs (Decidable True)
  | cache, act :: acts =>
      have := decidableUndisplaced settings (after settings cache act) acts
      inferInstanceAs (Decidable (¬ Displaces cache (after settings cache act) ∧
        Undisplaced settings (after settings cache act) acts))

/-! ## What an act can change -/

/-- Only one shard, and routes to it, have changed, and every key that came to
the shard is at home in it. -/
structure Confined (index : Nat) (before after : Cache Value) : Prop where
  size : after.shards.size = before.shards.size
  routes : ∀ name : String, after.routes[name]? = before.routes[name]? ∨
    (before.routes[name]? = none ∧ after.routes[name]? = some index)
  others : ∀ {place : Nat} {key : String}, place ≠ index →
    (after.Stores place key ↔ before.Stores place key)
  arrivals : ∀ {key : String}, after.Stores index key →
    before.Stores index key ∨ after.route key = index

namespace Confined

variable {index : Nat} {before middle after : Cache Value}

theorem route_eq
    (confined : Confined index before after) (name : String) :
    after.route name = before.route name ∨ after.route name = index := by
  rcases confined.routes name with kept | ⟨_, registered⟩
  · apply Or.inl
    unfold route
    rw [kept, confined.size]
  · exact Or.inr (route_of_registered registered)

theorem refl (cache : Cache Value) : Confined index cache cache where
  size := rfl
  routes _ := Or.inl rfl
  others _ := Iff.rfl
  arrivals := Or.inl

theorem trans
    (first : Confined index before middle)
    (second : Confined index middle after) :
    Confined index before after where
  size := second.size.trans first.size
  routes name := by
    rcases second.routes name with kept | ⟨vacant, registered⟩
    · rw [kept]
      exact first.routes name
    · rcases first.routes name with unchanged | ⟨_, earlier⟩
      · exact Or.inr ⟨unchanged ▸ vacant, registered⟩
      · rw [earlier] at vacant
        cases vacant
  others apart := (second.others apart).trans (first.others apart)
  arrivals {key} stored := by
    rcases second.arrivals stored with earlier | home
    · rcases first.arrivals earlier with first | home
      · exact Or.inl first
      · rcases second.route_eq key with kept | moved
        · exact Or.inr (kept.trans home)
        · exact Or.inr moved
    · exact Or.inr home

end Confined

theorem Reseats.confined
    {index : Nat} {old new : Shard Value} {before after : Cache Value}
    (seat : before.shards[index]? = some old)
    (reseats : Reseats index new before after)
    (arrivals : ∀ key ∈ new.entries,
      key ∈ old.entries ∨ before.route key = index) :
    Confined index before after where
  size := reseats.size
  routes _ := Or.inl (by rw [reseats.routes])
  others {place key} apart := by
    unfold Stores
    rw [reseats.others apart]
  arrivals {key} stored := by
    rw [stores_iff_of_seat reseats.seat] at stored
    rcases arrivals key stored with earlier | home
    · exact Or.inl ((stores_iff_of_seat seat).mpr earlier)
    · apply Or.inr
      rw [route] at home ⊢
      rwa [reseats.routes, reseats.size]

theorem Step.confined
    {index : Nat} {before after : Cache Value}
    (step : Step index before after) : Confined index before after := by
  cases step with
  | quiet alike =>
      exact ⟨alike.size, fun _ => Or.inl (by rw [alike.routes]),
        fun _ => alike.stores_iff, fun stored =>
          Or.inl (alike.stores_iff.mp stored)⟩
  | registers home registers =>
      have same : ∀ {place : Nat} {key : String},
          after.Stores place key ↔ before.Stores place key := by
        intro place key
        unfold Stores
        rw [registers.shards]
      refine ⟨by rw [registers.shards], ?_, fun _ => same,
        fun stored => Or.inl (same.mp stored)⟩
      intro name
      rcases registers.routes name with kept | ⟨vacant, registered, _⟩
      · exact Or.inl kept
      · exact Or.inr ⟨vacant, registered⟩
  | removes seat alike reseats =>
      refine reseats.confined seat fun key stored => ?_
      exact Or.inl
        (Shard.mem_entries_eraseAll.mp (alike.mem_entries.mp stored)).1
  | stores seat home registered free reseats =>
      refine reseats.confined seat fun key stored => ?_
      rw [Shard.entries_upsert, ExtTreeMap.mem_insert] at stored
      rcases stored with same | earlier
      · have keyed := Std.compare_eq_iff_eq.mp same
        exact Or.inr (keyed ▸ home)
      · exact Or.inl earlier

theorem confined_of_steps
    {index : Nat} {before after : Cache Value}
    (steps : ReflTransGen (Step index) before after) :
    Confined index before after := by
  induction steps with
  | refl => exact .refl before
  | tail _ step inductionHypothesis =>
      exact inductionHypothesis.trans step.confined

/-- The number of shards never changes. -/
theorem size_follow
    {settings : Settings} {cache : Cache Value} (coherent : cache.Coherent)
    (acts : List (Act Value)) :
    (follow settings cache acts).shards.size = cache.shards.size := by
  induction acts generalizing cache with
  | nil => rfl
  | cons act acts inductionHypothesis =>
      obtain ⟨index, steps⟩ := exists_steps_of_act settings coherent act
      have later := inductionHypothesis (coherent.after settings act)
      exact later.trans (confined_of_steps steps).size

/-! ## Displaced keys -/

/-- A change at one shard leaves every key at home exactly when it displaces
none. -/
theorem Confined.homed_iff
    {index : Nat} {before after : Cache Value}
    (confined : Confined index before after) (homed : before.Homed) :
    after.Homed ↔ ¬ Displaces before after := by
  constructor
  · intro later displaces
    obtain ⟨place, key, target, stored, vacant, registered, apart⟩ := displaces
    rcases confined.routes key with kept | ⟨_, here⟩
    · rw [kept, vacant] at registered
      cases registered
    · -- The registration was at `index`, so the shard that stores the key has
      -- not changed.
      rw [here] at registered
      cases registered
      have stays : after.Stores place key :=
        (confined.others (Ne.symm apart)).mpr stored
      have home := later place key stays
      rw [route_of_registered here] at home
      exact apart home
  · intro undisplaced place key stored
    by_cases same : place = index
    · subst same
      rcases confined.arrivals stored with earlier | home
      · rcases confined.route_eq key with kept | moved
        · exact kept.trans (homed place key earlier)
        · exact moved
      · exact home
    · have earlier := (confined.others same).mp stored
      rcases confined.routes key with kept | ⟨vacant, registered⟩
      · have home := homed place key earlier
        rw [route] at home ⊢
        rwa [kept, confined.size]
      · exact absurd
          ⟨place, key, index, earlier, vacant, registered, Ne.symm same⟩
          undisplaced

theorem homed_empty (settings : Settings) (paddings : Nat → List Nat) :
    (empty settings paddings : Cache Value).Homed := by
  intro index key stored
  exact absurd stored (not_stores_empty settings paddings index key)

theorem homed_prefix_iff
    (settings : Settings) {cache : Cache Value}
    (coherent : cache.Coherent) (homed : cache.Homed)
    (acts : List (Act Value)) :
    (∀ early, early <+: acts → (follow settings cache early).Homed) ↔
      Undisplaced settings cache acts := by
  induction acts generalizing cache with
  | nil =>
      refine iff_of_true ?_ trivial
      intro early isPrefix
      rw [List.prefix_nil.mp isPrefix]
      exact homed
  | cons act acts inductionHypothesis =>
      obtain ⟨index, steps⟩ := exists_steps_of_act settings coherent act
      have step := (confined_of_steps steps).homed_iff homed
      have goOn := fun here =>
        inductionHypothesis (coherent.after settings act) here
      constructor
      · intro all
        have here : (after settings cache act).Homed :=
          all [act] (by simp)
        refine ⟨step.mp here, (goOn here).mp ?_⟩
        intro early isPrefix
        exact all (act :: early) (List.cons_prefix_cons.mpr ⟨rfl, isPrefix⟩)
      · intro undisplaced
        obtain ⟨kept, rest⟩ := undisplaced
        intro early isPrefix
        cases early with
        | nil => exact homed
        | cons first early =>
            obtain ⟨rfl, later⟩ := List.cons_prefix_cons.mp isPrefix
            exact (goOn (step.mpr kept)).mpr rest early later

/-! ## Listing every key once -/

theorem nodup_liveKeys
    {shard : Shard Value} (coherent : shard.Coherent) (now : Instant) :
    (shard.liveKeys now).Nodup ∧
      ∀ key ∈ shard.liveKeys now, key ∈ shard.entries := by
  have keyed : ∀ stored ∈ shard.entries.toList,
      stored.2.key = stored.1 := by
    intro stored member
    exact coherent.keyed
      (ExtTreeMap.mem_toList_iff_getElem?_eq_some.mp member)
  have listed : shard.liveKeys now =
      (shard.entries.toList.filter
        fun stored => !stored.2.isExpired now).map Prod.fst := by
    rw [Shard.liveKeys]
    exact List.map_congr_left fun stored member =>
      keyed stored (List.mem_filter.mp member).1
  constructor
  · rw [listed]
    have all : (shard.entries.toList.map Prod.fst).Nodup := by
      rw [ExtTreeMap.map_fst_toList_eq_keys]
      exact ExtTreeMap.nodup_keys
    exact all.sublist (List.filter_sublist.map Prod.fst)
  · intro key member
    rw [listed] at member
    obtain ⟨stored, kept, rfl⟩ := List.mem_map.mp member
    rw [← ExtTreeMap.mem_keys, ← ExtTreeMap.map_fst_toList_eq_keys]
    exact List.mem_map_of_mem (List.mem_filter.mp kept).1

theorem ends_keysOf
    {cache : Cache Value} (coherent : cache.Coherent) (index : Nat) :
    Ends (keysOf index) cache
      (fun listed next => Alike cache next ∧ listed.Nodup ∧
        ∀ key ∈ listed, cache.Stores index key)
      (fun _ _ => True) := by
  rw [keysOf, ends_bind, ends_shardAt]
  split
  next shard seat =>
    rw [ends_bind, ends_readClock]
    split
    next now clock _ =>
      obtain ⟨distinct, stored⟩ := nodup_liveKeys (coherent.shards seat) now
      refine ⟨alike_withClock cache clock, distinct, ?_⟩
      intro key member
      exact (stores_iff_of_seat seat).mpr (stored key member)
    next => trivial
  next => trivial

section Homed

variable {settings : Settings} {cache : Cache Value}

theorem Homed.stored_once
    (homed : cache.Homed) {first second : Nat} {key : String}
    (firstStores : cache.Stores first key)
    (secondStores : cache.Stores second key) : first = second := by
  rw [← homed first key firstStores, homed second key secondStores]

/-- The shards that are still to be listed hold none of the keys found so
far. -/
theorem ends_foldlM_keysOf
    (coherent : cache.Coherent) (homed : cache.Homed)
    {indices : List Nat} (distinct : indices.Nodup)
    {found : List String} (nodup : found.Nodup)
    (elsewhere : ∀ key ∈ found, ∃ place, place ∉ indices ∧
      cache.Stores place key)
    {reading : Cache Value} (alike : Alike cache reading) :
    Ends (indices.foldlM
        (fun found index => return found ++ (← keysOf index)) found) reading
      (fun listed _ => listed.Nodup) (fun _ _ => True) := by
  induction indices generalizing found reading with
  | nil => exact nodup
  | cons index indices inductionHypothesis =>
      obtain ⟨fresh, others⟩ := List.nodup_cons.mp distinct
      rw [List.foldlM_cons, ends_bind, ends_bind]
      apply (ends_keysOf (alike.coherent coherent) index).weaken
      · intro listed next listing
        obtain ⟨further, listedOnce, stored⟩ := listing
        have storedHere : ∀ key ∈ listed, cache.Stores index key :=
          fun key member => alike.stores_iff.mp (stored key member)
        refine inductionHypothesis others ?_ ?_ (alike.trans further)
        · refine List.nodup_append.mpr ⟨nodup, listedOnce, ?_⟩
          intro key member same sameListed sameKey
          subst sameKey
          obtain ⟨place, apart, there⟩ := elsewhere key member
          have here := storedHere key sameListed
          rw [homed.stored_once there here] at apart
          exact apart List.mem_cons_self
        · intro key member
          rcases List.mem_append.mp member with earlier | now
          · obtain ⟨place, apart, there⟩ := elsewhere key earlier
            exact ⟨place,
              fun later => apart (List.mem_cons_of_mem index later), there⟩
          · exact ⟨index, fresh, storedHere key now⟩
      · exact fun _ _ _ => trivial

theorem Homed.ends_keys
    (homed : cache.Homed) (coherent : cache.Coherent) :
    Ends keys cache (fun found _ => found.Nodup) (fun _ _ => True) := by
  rw [keys, ends_bind, ends_get]
  exact ends_foldlM_keysOf coherent homed List.nodup_range List.nodup_nil
    (by simp) (.refl cache)

/-! ## Reading and deleting through the key -/

theorem Homed.ends_lookup
    (homed : cache.Homed) {index : Nat} {shard : Shard Value}
    {key : String} {entry : Entry Value} {now : Instant}
    (seat : cache.shards[index]? = some shard)
    (found : shard.entries[key]? = some entry)
    (decided : cache.deciding key = .ok now)
    (live : now ≤ entry.expiresAt) :
    Ends (lookup settings key) cache
      (fun lookup _ => lookup.content = some entry.value)
      (fun _ _ => False) := by
  have home : cache.route key = index :=
    homed index key (stores_of_found seat found)
  have homeSeat : cache.shards[cache.route key]? = some shard := by
    rw [home, seat]
  refine (ends_lookup_of_deciding homeSeat decided).weaken ?_
    fun _ _ => id
  intro lookup next content
  rw [content, Shard.seen, Shard.resolve_of_stored (Shard.stored_of_found found),
    found, Option.bind_some, Entry.shown_eq_some_iff]
  exact ⟨live, rfl⟩

theorem Homed.ends_delete
    (homed : cache.Homed) {index : Nat} {key : String}
    (stored : cache.Stores index key) :
    Ends (delete key) cache
      (fun existed next => existed = true ∧
        ∀ place, ¬ next.Stores place key)
      (fun _ _ => False) := by
  obtain ⟨shard, seat, member⟩ := stored
  have home : cache.route key = index :=
    homed index key ⟨shard, seat, member⟩
  have homeSeat : cache.shards[cache.route key]? = some shard := by
    rw [home, seat]
  have itself : shard.primary key = key := by
    rw [Shard.primary, if_pos member]
  refine (Cache.ends_delete homeSeat).weaken ?_ fun _ _ => id
  intro existed next deleted
  obtain ⟨rfl, _, reseats⟩ := deleted
  refine ⟨by simpa [Shard.delete, itself] using member, ?_⟩
  intro place storing
  obtain ⟨later, laterSeat, stillStored⟩ := storing
  rw [reseats.shards_eq] at laterSeat
  split at laterSeat
  · cases laterSeat
    simp [Shard.delete, itself] at stillStored
  next apart =>
    have there := homed place key ⟨later, laterSeat, stillStored⟩
    exact apart there.symm

end Homed

/-- What can be relied on when every key is at home. -/
structure Orderly (settings : Settings) (cache : Cache Value) : Prop where
  /-- No key is stored in two shards. -/
  once : ∀ first second key, cache.Stores first key →
    cache.Stores second key → first = second
  /-- No key is listed twice. -/
  listed : Ends keys cache (fun found _ => found.Nodup) (fun _ _ => True)
  /-- Every live entry can be read through its key. -/
  read : ∀ (index : Nat) (shard : Shard Value) (key : String)
    (entry : Entry Value) (now : Instant),
    cache.shards[index]? = some shard →
      shard.entries[key]? = some entry → cache.deciding key = .ok now →
        now ≤ entry.expiresAt →
          Ends (lookup settings key) cache
            (fun lookup _ => lookup.content = some entry.value)
            (fun _ _ => False)
  /-- Every entry can be deleted through its key. -/
  deleted : ∀ index key, cache.Stores index key →
    Ends (delete key) cache
      (fun existed next => existed = true ∧
        ∀ place, ¬ next.Stores place key)
      (fun _ _ => False)

theorem Homed.orderly
    {settings : Settings} {cache : Cache Value}
    (homed : cache.Homed) (coherent : cache.Coherent) :
    Orderly settings cache where
  once _ _ _ := homed.stored_once
  listed := homed.ends_keys coherent
  read _ _ _ _ _ := homed.ends_lookup
  deleted _ _ := homed.ends_delete

/-- Every cache of a run is homed exactly when no act registers, on one shard, a
name that another shard stores as a key; and then the keys of the last one are
in order. -/
theorem homed_iff_undisplaced
    {settings : Settings} (valid : settings.Valid)
    (paddings : Nat → List Nat) (acts : List (Act Value)) :
    ((∀ early, early <+: acts →
        (follow settings (empty settings paddings) early).Homed) ↔
      Undisplaced settings (empty settings paddings) acts) ∧
      (Undisplaced settings (empty settings paddings) acts →
        Orderly settings
          (follow settings (empty settings paddings) acts)) := by
  have coherent : (empty settings paddings : Cache Value).Coherent :=
    coherent_empty valid paddings
  have exactly :=
    homed_prefix_iff settings coherent (homed_empty settings paddings) acts
  refine ⟨exactly, fun undisplaced => ?_⟩
  have homed := exactly.mpr undisplaced acts (List.prefix_refl acts)
  exact homed.orderly (coherent.follow settings acts)

/-- An alias that is new to the cache does not displace the key that the other
shard stores. -/
theorem homed_iff_undisplaced_newAlias :
    let new : Cache Nat := empty Settings.twoShards fun _ => []
    let first := after Settings.twoShards new (.write ⟨"a", some 1, []⟩)
    let acts : List (Act Nat) :=
      [.write ⟨"a", some 1, []⟩, .write ⟨"d", some 2, ["x"]⟩]
    Settings.twoShards.Valid ∧ first.Stores 1 "a" ∧
      (follow Settings.twoShards new acts).routes["x"]? = some 0 ∧
        Undisplaced Settings.twoShards new acts ∧
          Orderly Settings.twoShards
            (follow Settings.twoShards new acts) := by
  intro new first acts
  have valid : Settings.twoShards.Valid := by decide
  have undisplaced : Undisplaced Settings.twoShards new acts := by
    decide +kernel
  exact ⟨valid, by decide +kernel, by decide +kernel, undisplaced,
    (homed_iff_undisplaced valid (fun _ => []) acts).2 undisplaced⟩

/-- An alias that is stored as a key on the other shard by the time it is
registered. -/
def lateAlias : List (Act Nat) :=
  [.write ⟨"a", some 1, []⟩, .write ⟨"d", some 2, ["a"]⟩, .delete "d"]

/-- The key that was displaced is listed, but neither read nor deleted, and
after a further write it is stored twice and listed twice. -/
theorem late_alias_displaces :
    Settings.twoShards.Valid ∧
      (let stray :=
        follow Settings.twoShards (empty Settings.twoShards fun _ => [])
          lateAlias
      ¬ stray.Homed ∧ result? keys stray = some ["a"] ∧
        result? (lookup Settings.twoShards "a") stray = some .absent ∧
          result? (delete "a") stray = some false) ∧
      (let twice :=
        follow Settings.twoShards (empty Settings.twoShards fun _ => [])
          (lateAlias ++ [.write ⟨"a", some 3, []⟩])
      twice.Stores 0 "a" ∧ twice.Stores 1 "a" ∧
        result? keys twice = some ["a", "a"]) := by
  refine ⟨by decide, ⟨?_, ?_⟩, ?_⟩
  · intro homed
    have stored : (follow Settings.twoShards
        (empty Settings.twoShards fun _ => []) lateAlias).Stores 1 "a" := by
      decide +kernel
    have home := homed 1 "a" stored
    revert home
    decide +kernel
  · decide +kernel
  · decide +kernel

end ReadThrough.Cache
