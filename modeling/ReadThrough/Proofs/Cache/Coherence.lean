import ReadThrough.Proofs.Cache.Acts
import ReadThrough.Proofs.Cache.Writing
import ReadThrough.Proofs.Settings

/-!
# The names of a cache

A cache is `Coherent` when its shards are, when every route leads to a shard,
and when the shard of every bound alias is the one that the alias is routed to.

Whatever an act does to the names of a cache it does at one shard, in a few
steps: it registers aliases, removes entries, or stores one.  Each `Step` keeps
a cache coherent and every route as it is, and so does every run.
-/

namespace ReadThrough

open Std (ExtTreeMap)
open Relation (ReflTransGen)

namespace Cache

variable {Value : Type}

/-- The shards of a cache and its routes agree with each other. -/
structure Coherent (cache : Cache Value) : Prop where
  inhabited : 0 < cache.shards.size
  /-- Every shard is coherent. -/
  shards : ∀ {index : Nat} {shard : Shard Value},
    cache.shards[index]? = some shard → shard.Coherent
  /-- An alias that is bound in a shard is routed to it. -/
  routed : ∀ {index : Nat} {shard : Shard Value} {name key : String},
    cache.shards[index]? = some shard →
      shard.keyOfAlias[name]? = some key → cache.routes[name]? = some index
  /-- Every route leads to a shard. -/
  seats : ∀ {name : String} {index : Nat},
    cache.routes[name]? = some index → index < cache.shards.size

theorem route_of_registered
    {cache : Cache Value} {name : String} {index : Nat}
    (registered : cache.routes[name]? = some index) :
    cache.route name = index := by
  rw [route, registered, Option.getD_some]

namespace Coherent

variable {cache : Cache Value} (coherent : cache.Coherent)

include coherent

theorem route_lt (name : String) :
    cache.route name < cache.shards.size := by
  rw [route]
  cases found : cache.routes[name]? with
  | none => exact Nat.mod_lt _ coherent.inhabited
  | some index => exact coherent.seats found

theorem seat (name : String) :
    ∃ shard, cache.shards[cache.route name]? = some shard :=
  ⟨_, Array.getElem?_eq_getElem (coherent.route_lt name)⟩

/-- No alias is bound in two shards or to two keys. -/
theorem bound_once
    {first second : Nat} {left right : Shard Value}
    {name leftKey rightKey : String}
    (leftSeat : cache.shards[first]? = some left)
    (rightSeat : cache.shards[second]? = some right)
    (leftBound : left.keyOfAlias[name]? = some leftKey)
    (rightBound : right.keyOfAlias[name]? = some rightKey) :
    first = second ∧ leftKey = rightKey := by
  have sameShard : first = second := by
    have leftRoute := coherent.routed leftSeat leftBound
    rw [coherent.routed rightSeat rightBound] at leftRoute
    exact (Option.some.inj leftRoute).symm
  subst sameShard
  rw [leftSeat] at rightSeat
  cases rightSeat
  rw [leftBound] at rightBound
  exact ⟨rfl, Option.some.inj rightBound⟩

end Coherent

theorem coherent_empty
    {settings : Settings} (valid : settings.Valid)
    (paddings : Nat → List Nat) :
    (empty settings paddings : Cache Value).Coherent where
  inhabited := by
    simpa [empty] using valid.operable.shards
  shards {index shard} found := by
    simp only [empty, Array.getElem?_ofFn] at found
    split at found
    · cases found
      exact Shard.coherent_empty _ _
    · cases found
  routed {index shard name key} found bound := by
    simp only [empty, Array.getElem?_ofFn] at found
    split at found
    · cases found
      simp [Shard.empty] at bound
    · cases found
  seats found := by simp [empty] at found

theorem not_stores_empty
    (settings : Settings) (paddings : Nat → List Nat)
    (index : Nat) (key : String) :
    ¬ (empty settings paddings : Cache Value).Stores index key := by
  intro storing
  obtain ⟨shard, seat, stored⟩ := storing
  simp only [empty, Array.getElem?_ofFn, Option.mem_def] at seat
  split at seat
  · cases seat
    simp [Shard.empty] at stored
  · cases seat

/-! ## Steps -/

/-- What an act does to the names of a cache at one shard. -/
inductive Step (index : Nat) (before after : Cache Value) : Prop
  | quiet (alike : Alike before after)
  | registers {key : String} {aliases : List String}
      (home : before.route key = index)
      (registers : Registers key index aliases before after)
  | removes {shard other : Shard Value} {keys : List String}
      (seat : before.shards[index]? = some shard)
      (alike : (shard.eraseAll keys).Alike other)
      (reseats : Reseats index other before after)
  | stores {shard : Shard Value} {entry : Entry Value}
      {aliases : List String}
      (seat : before.shards[index]? = some shard)
      (home : before.route entry.key = index)
      (registered : ∀ name ∈ aliases, name ≠ entry.key →
        before.routes[name]? = some index)
      (free : ∀ name ∈ aliases, name ≠ entry.key → ∀ owner : String,
        shard.keyOfAlias[name]? = some owner → owner = entry.key)
      (reseats : Reseats index (shard.upsert entry aliases) before after)

theorem Step.keeps_route
    {index place : Nat} {before after : Cache Value} {name : String}
    (step : Step index before after)
    (found : before.routes[name]? = some place) :
    after.routes[name]? = some place := by
  cases step with
  | quiet alike => rw [alike.routes, found]
  | registers home registers => exact registers.keeps found
  | removes seat alike reseats => rw [reseats.routes, found]
  | stores seat home registered free reseats => rw [reseats.routes, found]

theorem Reseats.coherent
    {index : Nat} {shard : Shard Value} {before after : Cache Value}
    (coherent : before.Coherent) (reseats : Reseats index shard before after)
    (new : shard.Coherent)
    (routed : ∀ {name key : String}, shard.keyOfAlias[name]? = some key →
      before.routes[name]? = some index) : after.Coherent where
  inhabited := by
    rw [reseats.size]
    exact coherent.inhabited
  shards {place found} foundSeat := by
    rw [reseats.shards_eq] at foundSeat
    split at foundSeat
    · cases foundSeat
      exact new
    · exact coherent.shards foundSeat
  routed {place found name key} foundSeat bound := by
    rw [reseats.shards_eq] at foundSeat
    rw [reseats.routes]
    split at foundSeat
    next same =>
      cases foundSeat
      rw [same]
      exact routed bound
    next => exact coherent.routed foundSeat bound
  seats found := by
    rw [reseats.routes] at found
    rw [reseats.size]
    exact coherent.seats found

theorem Alike.coherent
    {before after : Cache Value} (alike : Alike before after)
    (coherent : before.Coherent) : after.Coherent where
  inhabited := by
    rw [alike.size]
    exact coherent.inhabited
  shards seat := by
    obtain ⟨earlier, earlierSeat, similar⟩ := alike.symm.shards seat
    exact similar.symm.coherent (coherent.shards earlierSeat)
  routed seat bound := by
    obtain ⟨earlier, earlierSeat, similar⟩ := alike.symm.shards seat
    rw [alike.routes]
    rw [← similar.keyOfAlias] at bound
    exact coherent.routed earlierSeat bound
  seats found := by
    rw [alike.routes] at found
    rw [alike.size]
    exact coherent.seats found

theorem Step.coherent
    {index : Nat} {before after : Cache Value}
    (step : Step index before after) (coherent : before.Coherent) :
    after.Coherent := by
  cases step with
  | quiet alike => exact alike.coherent coherent
  | @registers key aliases home registers =>
      refine ⟨?_, ?_, ?_, ?_⟩
      · rw [registers.shards]
        exact coherent.inhabited
      · intro place shard seat
        rw [registers.shards] at seat
        exact coherent.shards seat
      · intro place shard name owner seat bound
        rw [registers.shards] at seat
        exact registers.keeps (coherent.routed seat bound)
      · intro name place found
        rw [registers.shards]
        rcases registers.routes name with kept | ⟨_, taken, _⟩
        · exact coherent.seats (kept ▸ found)
        · rw [taken] at found
          cases found
          exact home ▸ coherent.route_lt key
  | @removes shard other keys seat alike reseats =>
      have old := coherent.shards seat
      apply reseats.coherent coherent (alike.coherent (old.eraseAll keys))
      intro name key bound
      rw [alike.keyOfAlias] at bound
      exact coherent.routed seat (Shard.keyOfAlias_of_eraseAll bound)
  | @stores shard entry aliases seat home registered free reseats =>
      have old := coherent.shards seat
      apply reseats.coherent coherent (old.upsert free)
      intro name key bound
      rw [Shard.getElem?_keyOfAlias_upsert old] at bound
      split at bound
      next asked =>
        have member := Shard.mem_boundAliases.mp asked
        exact registered name member.1 member.2
      next =>
        split at bound
        · cases bound
        · exact coherent.routed seat bound

/-! ## Acts take steps -/

theorem respects_quiet_alike (settings : Settings) (silent : Quiet) :
    Respects (@Alike Value) (silent.action settings) := by
  cases silent with
  | advance duration => exact respects_advanceClock_alike duration
  | layDown readings => exact fun _ => Alike.of_eq rfl rfl
  | emptyJournal => exact fun _ => Alike.of_eq rfl rfl
  | route name => exact (respects_shardIndex_alike name).discard
  | lookup name => exact (respects_lookup_alike settings name).discard
  | peek name => exact (respects_peek_alike name).discard
  | readShard index name =>
      exact (respects_getFrom_alike settings index name).discard
  | listShard index => exact (respects_keysOf_alike index).discard

section Acts

variable {settings : Settings} {cache : Cache Value}

/-- A write takes steps at the shard of its key, however it ends. -/
theorem WriteOutcome.steps
    {draft : Draft Value} {shard : Shard Value} {next : Cache Value}
    {result : Except Fault Bool}
    (outcome : WriteOutcome settings draft.key draft.value draft.aliases
      shard cache result next)
    (seat : cache.shards[cache.route draft.key]? = some shard) :
    ReflTransGen (Step (cache.route draft.key)) cache next := by
  have noting : Step (cache.route draft.key) cache
      (cache.noted (.routed (cache.route draft.key))) :=
    .quiet (alike_noted cache _)
  have registering : ∀ {registered : Cache Value},
      Registers draft.key (cache.route draft.key) draft.aliases
        (cache.noted (.routed (cache.route draft.key))) registered →
      ReflTransGen (Step (cache.route draft.key)) cache registered :=
    fun registers => (ReflTransGen.single noting).tail
      (.registers rfl registers)
  cases outcome with
  | conflict clash registers => exact registering registers
  | dropped refuses claims => exact registering claims.toRegisters
  | @broken fault claimed after roomy room harmless claims alike reseats =>
      have claimedSeat :
          claimed.shards[cache.route draft.key]? = some shard := by
        rw [claims.shards, shards_noted, seat]
      exact (registering claims.toRegisters).tail
        (.removes claimedSeat alike reseats)
  | @stored claimed after now refreshAt padding roomy room claims reading
      refreshTime alike reseats =>
      have claimedSeat :
          claimed.shards[cache.route draft.key]? = some shard := by
        rw [claims.shards, shards_noted, seat]
      have cleared : Reseats (cache.route draft.key) roomy claimed
          (claimed.withShard (cache.route draft.key) roomy) :=
        .of_withShard claimedSeat
      have storing : Step (cache.route draft.key)
          (claimed.withShard (cache.route draft.key) roomy) next := by
        refine .stores cleared.seat ?_ ?_ ?_ (reseats.from_withShard roomy)
        · rw [route]
          rw [routes_withShard, size_shards_withShard]
          exact claims.route_key
        · exact claims.registered
        · intro name member apart owner bound
          rw [alike.keyOfAlias] at bound
          exact claims.free name member apart owner
            (Shard.keyOfAlias_of_eraseAll bound)
      exact ((registering claims.toRegisters).tail
        (.removes claimedSeat alike cleared)).tail storing

/-- What an act does to the shards and the routes of a cache: nothing, or it
removes entries from one shard, or it writes. -/
inductive Effect (settings : Settings) (before : Cache Value) :
    Act Value → Cache Value → Prop
  | quiet {act : Act Value} {after : Cache Value}
      (alike : Alike before after) : Effect settings before act after
  | removes {act : Act Value} {after : Cache Value} {index : Nat}
      {shard : Shard Value} {keys : List String}
      (seat : before.shards[index]? = some shard)
      (reseats : Reseats index (shard.eraseAll keys) before after) :
      Effect settings before act after
  | writes {draft : Draft Value} {after : Cache Value}
      {shard : Shard Value} {result : Except Fault Bool}
      (seat : before.shards[before.route draft.key]? = some shard)
      (outcome : WriteOutcome settings draft.key draft.value draft.aliases
        shard before result after) :
      Effect settings before (.write draft) after

theorem effect_of_act
    (settings : Settings) (coherent : cache.Coherent) (act : Act Value) :
    Effect settings cache act (Cache.after settings cache act) := by
  cases act with
  | quiet silent =>
      exact .quiet
        (respects_final (respects_quiet_alike settings silent) cache)
  | write draft =>
      obtain ⟨shard, seat⟩ := coherent.seat draft.key
      refine ends_iff_final.mp (ends_discard.mpr ((ends_write seat).weaken
        ?_ ?_))
      · exact fun _ _ outcome => .writes seat outcome
      · exact fun _ _ outcome => .writes seat outcome
  | delete name =>
      obtain ⟨shard, seat⟩ := coherent.seat name
      refine ends_iff_final.mp (ends_discard.mpr ((ends_delete seat).weaken
        ?_ fun _ _ impossible => impossible.elim))
      intro existed next deleted
      have removed : Reseats (cache.route name)
          (shard.eraseAll [shard.primary name]) cache next := deleted.2.2
      exact .removes seat removed
  | sweep index =>
      refine ends_iff_final.mp (ends_discard.mpr ?_)
      cases seat : cache.shards[index]? with
      | none =>
          refine (ends_sweep_of_no_seat seat).weaken
            (fun _ _ impossible => impossible.elim) ?_
          intro fault next broken
          obtain ⟨_, rfl⟩ := broken
          exact .quiet (.refl _)
      | some shard =>
          refine (ends_sweep seat).weaken ?_ ?_
          · intro count next swept
            obtain ⟨now, _, _, reseats⟩ := swept
            exact .removes seat reseats
          · intro fault next broken
            exact .quiet broken.2

theorem exists_steps_of_act
    (settings : Settings) (coherent : cache.Coherent) (act : Act Value) :
    ∃ index, ReflTransGen (Step index) cache
      (Cache.after settings cache act) := by
  cases effect_of_act settings coherent act with
  | quiet alike => exact ⟨0, .single (.quiet alike)⟩
  | @removes _ _ index _ _ seat reseats =>
      exact ⟨index, .single (.removes seat (.refl _) reseats)⟩
  | writes seat outcome => exact ⟨_, outcome.steps seat⟩

end Acts

/-! ## Runs -/

theorem coherent_of_steps
    {index : Nat} {before after : Cache Value}
    (steps : ReflTransGen (Step index) before after)
    (coherent : before.Coherent) : after.Coherent := by
  induction steps with
  | refl => exact coherent
  | tail _ step inductionHypothesis => exact step.coherent inductionHypothesis

theorem keeps_route_of_steps
    {index place : Nat} {before after : Cache Value} {name : String}
    (steps : ReflTransGen (Step index) before after)
    (found : before.routes[name]? = some place) :
    after.routes[name]? = some place := by
  induction steps with
  | refl => exact found
  | tail _ step inductionHypothesis =>
      exact step.keeps_route inductionHypothesis

theorem Coherent.after
    {cache : Cache Value} (coherent : cache.Coherent)
    (settings : Settings) (act : Act Value) :
    (Cache.after settings cache act).Coherent := by
  obtain ⟨index, steps⟩ := exists_steps_of_act settings coherent act
  exact coherent_of_steps steps coherent

theorem Coherent.follow
    {cache : Cache Value} (coherent : cache.Coherent)
    (settings : Settings) (acts : List (Act Value)) :
    (Cache.follow settings cache acts).Coherent :=
  follow_induction coherent (fun _ act kept => kept.after settings act) acts

theorem Coherent.of_runs
    {settings : Settings} {before after : Cache Value}
    (coherent : before.Coherent) (runs : Runs settings before after) :
    after.Coherent := by
  obtain ⟨acts, reached⟩ := runs
  rw [← reached]
  exact coherent.follow settings acts

/-- An action that does what acts do keeps a cache coherent, however it ends. -/
theorem Coherent.ends_of_respects
    {settings : Settings} {cache : Cache Value} {Result : Type}
    {action : Action Value Result} (coherent : cache.Coherent)
    (respects : Respects (Runs settings) action) :
    Ends action cache (fun _ after => after.Coherent)
      (fun _ after => after.Coherent) :=
  ends_iff_final.mpr (coherent.of_runs (respects_final respects cache))

theorem coherent_of_operations
    [Keyed Value] {settings : Settings} (valid : settings.Valid)
    (paddings : Nat → List Nat) (operations : List (Operation Value)) :
    (operate settings (empty settings paddings) operations).Coherent :=
  (coherent_empty valid paddings).of_runs
    (runs_operate settings (empty settings paddings) operations)

/-- A run leaves every route of a coherent cache as it is. -/
theorem routes_follow
    {settings : Settings} {cache : Cache Value} {name : String} {place : Nat}
    (coherent : cache.Coherent)
    (found : cache.routes[name]? = some place) (acts : List (Act Value)) :
    (follow settings cache acts).routes[name]? = some place := by
  induction acts generalizing cache with
  | nil => exact found
  | cons act acts inductionHypothesis =>
      obtain ⟨index, steps⟩ := exists_steps_of_act settings coherent act
      exact inductionHypothesis (coherent.after settings act)
        (keeps_route_of_steps steps found)

/-! ## Sample settings

Under these settings the name `d` is routed to the first shard and the names
`a` and `b` to the second. -/

end Cache

/-- Two shards of five entries each, and no refreshes. -/
def Settings.twoShards : Settings :=
  { capacity := 10
    shardCount := 2
    timeToLive := 1000
    evictionPercentage := 10
    sweepInterval := 500
    sweeping := false
    refresh := none
    storesMissing := false
    timeSource := .manual
    recorder := .absent }

/-- A value that consists of its names. -/
structure NameTag where
  key : String
  aliases : List String
  deriving DecidableEq, Repr

instance : Keyed NameTag := ⟨NameTag.key, NameTag.aliases⟩

namespace Cache

variable {Value : Type}

/-- Two writes on different shards that want the same alias. -/
def contested : List (Operation NameTag) :=
  [.act (.write ⟨"d", some ⟨"d", ["a"]⟩, ["a"]⟩),
    .writeAll [⟨"b", none, []⟩, ⟨"b", some ⟨"b", ["a"]⟩, ["a"]⟩]]

/-- Whatever has been done to a new cache, by writes of any outcome, deletions,
reads, sweeps and the ends of fetches: its names are coherent, no alias is bound
in two shards or to two keys, and no route will ever change. -/
theorem coherent_operate
    [Keyed Value] {settings : Settings} (valid : settings.Valid)
    (paddings : Nat → List Nat) (operations : List (Operation Value)) :
    (operate settings (empty settings paddings) operations).Coherent ∧
      (∀ (first second : Nat) (left right : Shard Value)
        (name leftKey rightKey : String),
        (operate settings (empty settings paddings)
            operations).shards[first]? = some left →
          (operate settings (empty settings paddings)
              operations).shards[second]? = some right →
            left.keyOfAlias[name]? = some leftKey →
              right.keyOfAlias[name]? = some rightKey →
                first = second ∧ leftKey = rightKey) ∧
      (∀ (later : List (Operation Value)) (name : String) (index : Nat),
        (operate settings (empty settings paddings)
            operations).routes[name]? = some index →
          (operate settings (empty settings paddings)
            (operations ++ later)).routes[name]? = some index) := by
  have coherent :
      (operate settings (empty settings paddings) operations).Coherent :=
    (coherent_empty valid paddings).of_runs
      (runs_operate settings (empty settings paddings) operations)
  refine ⟨coherent, ?_, ?_⟩
  · intro first second left right name leftKey rightKey
    exact coherent.bound_once
  · intro later name index found
    rw [operate_append]
    obtain ⟨acts, reached⟩ := runs_operate settings
      (operate settings (empty settings paddings) operations) later
    rw [← reached]
    exact routes_follow coherent found acts

/-- A route that the second write of a run wanted otherwise: the alias stays
where the first write registered it, also after the entry is gone. -/
theorem coherent_operate_nameTags :
    Settings.twoShards.Valid ∧
      (operate Settings.twoShards
        (empty Settings.twoShards fun _ => []) contested).Coherent ∧
      (operate Settings.twoShards (empty Settings.twoShards fun _ => [])
        (contested ++ [.act (.delete "d")])).routes["a"]? = some 0 := by
  have valid : Settings.twoShards.Valid := by decide
  have stated := coherent_operate valid (fun _ => []) contested
  refine ⟨valid, stated.1, stated.2.2 [.act (.delete "d")] "a" 0 ?_⟩
  decide +kernel

end Cache

end ReadThrough
