import ReadThrough.Proofs.Cache.Attempts
import ReadThrough.Proofs.Cache.Homes
import ReadThrough.Proofs.Cache.Twins

/-!
# Writes that leave no trace

A write that ends in a fault, or that is dropped, should leave a cache as it
was.  The shards, the routes and the counters are in fact as before if no alias
of the write is new to the cache up to the first that clashes, and, where the
clock could not be read, if nothing had to be evicted before.  Then the cache
also answers as if the write had never been attempted.

The conditions cannot be dropped.  An alias that a failed write has registered
leads every later reader and writer of that name to the shard of the written
key, and entries that were evicted for a failed write are gone.
-/

namespace ReadThrough

open Std (ExtTreeMap)

theorem Settings.Valid.window_le
    {settings : Settings} (valid : settings.Valid)
    (expressible : settings.timeToLive ≤ Duration.longest) :
    ∀ window ∈ settings.refresh,
      window.earliest ≤ window.latest ∧
        window.latest ≤ Duration.longest := by
  intro window set
  obtain ⟨ordered, inTime, _⟩ := valid.operable.window window set
  exact ⟨ordered, Nat.le_trans inTime expressible⟩

/-- Two shards of one entry each, and a clock that follows a script. -/
def Settings.tight (percentage : Nat) : Settings :=
  { Settings.twoShards with
    capacity := 2
    evictionPercentage := percentage
    timeSource := .scripted }

/-- A write of a draft that was given, or of a value that was fetched. -/
inductive Writing (Value : Type) where
  | given (draft : Draft Value)
  | fetched (storing : Storing) (name : String) (value : Value)

namespace Writing

variable {Value : Type} [Keyed Value]

/-- What a write does to a cache. -/
def action (settings : Settings) : Writing Value → Cache.Action Value Unit
  | .given draft => discard (Cache.writeDraft settings draft)
  | .fetched storing name value =>
      Cache.storeFetched settings storing name value

/-- The write with its answer: whether entries had to be evicted. -/
def write (settings : Settings) : Writing Value → Cache.Action Value Bool
  | .given draft => Cache.writeDraft settings draft
  | .fetched .byName name value => Cache.storeByName settings name value
  | .fetched .byOwnKey name value => Cache.storeByOwnKey settings name value

theorem action_eq (settings : Settings) (writing : Writing Value) :
    writing.action settings = discard (writing.write settings) := by
  cases writing with
  | given draft => rfl
  | fetched storing name value =>
      cases storing with
      | byName => rfl
      | byOwnKey => rfl

/-- The draft that is written.  A value that is stored by the name it was
fetched under takes the place of the entry that the name leads to. -/
def draft (cache : Cache Value) : Writing Value → Draft Value
  | .given draft => draft
  | .fetched .byName name value =>
      let bound := ((cache.shards[cache.route name]?).bind
        (·.binding name)).getD (name, [])
      ⟨bound.1, some value, bound.2⟩
  | .fetched .byOwnKey name value =>
      ⟨Keyed.key value, some value, Cache.aliasesWith name value⟩

end Writing

namespace Cache

variable {Value : Type}

/-- Coherence is about the shards and the routes. -/
theorem Coherent.of_eq
    {before next : Cache Value} (coherent : before.Coherent)
    (shards : next.shards = before.shards)
    (routes : next.routes = before.routes) : next.Coherent where
  inhabited := by
    rw [shards]
    exact coherent.inhabited
  shards {index shard} seat := by
    rw [shards] at seat
    exact coherent.shards seat
  routed {index shard name key} seat bound := by
    rw [shards] at seat
    rw [routes]
    exact coherent.routed seat bound
  seats {name index} found := by
    rw [routes] at found
    rw [shards]
    exact coherent.seats found

/-- In coherent caches with one shard all routes lead to it. -/
theorem Coherent.twins
    {before next : Cache Value} (coherent : before.Coherent)
    (later : next.Coherent) (shards : next.shards = before.shards)
    (counters : next.counters = before.counters)
    (clock : next.clock = before.clock)
    (routes : before.shards.size ≠ 1 → next.routes = before.routes) :
    Twins before.shards.size before next where
  size := rfl
  shards := shards
  counters := counters
  clock := clock
  routes := routes
  home lone name index found := by
    have below : index < before.shards.size := by
      cases found with
      | inl seat => exact coherent.seats seat
      | inr seat => exact shards ▸ later.seats seat
    omega

section Broken

variable {settings : Settings} {cache : Cache Value}

/-- A write that a fault breaks off is refused or stopped. -/
theorem ends_writeDraft_broken
    (coherent : cache.Coherent)
    (expressible : ∀ window ∈ settings.refresh,
      window.earliest ≤ window.latest ∧ window.latest ≤ Duration.longest)
    (draft : Draft Value) :
    Ends (writeDraft settings draft) cache (fun _ _ => True)
      (fun fault next =>
        (fault.IsAliasConflict ∧ Refused draft cache next) ∨
        (fault = .instantOverflow ∧ Stopped settings draft cache next)) := by
  refine (ends_writeDraft_unstored coherent expressible draft).weaken
    (fun _ _ _ => trivial) ?_
  intro fault next broken
  cases broken with
  | inl refused => exact Or.inl ⟨refused.1, refused.2.2⟩
  | inr stopped => exact Or.inr ⟨stopped.1, stopped.2.2.2⟩

/-- Every write writes its draft.  Where a name has to be routed first, that is
noted, and nothing else has changed. -/
theorem ends_writing
    [Keyed Value] (coherent : cache.Coherent) (writing : Writing Value)
    {accepts : Bool → Cache Value → Prop}
    {breaks : Fault → Cache Value → Prop}
    (written : ∀ journal : Array Event,
      Ends (writeDraft settings (writing.draft cache)) { cache with journal }
        accepts breaks) :
    Ends (writing.write settings) cache accepts breaks := by
  cases writing with
  | given draft => exact written cache.journal
  | fetched storing name value =>
      cases storing with
      | byOwnKey => exact written cache.journal
      | byName =>
          obtain ⟨shard, seat⟩ := coherent.seat name
          have routedSeat : (cache.noted
              (.routed (cache.route name))).shards[cache.route name]? =
                some shard := seat
          have drafted : (Writing.fetched .byName name value).draft cache =
              ⟨((shard.binding name).getD (name, [])).1, some value,
                ((shard.binding name).getD (name, [])).2⟩ := by
            rw [Writing.draft, seat]
            rfl
          rw [drafted] at written
          rw [Writing.write, storeByName, ends_bind,
            ends_shardIndex_of_seat seat, ends_bind, ends_shardAt,
            routedSeat]
          exact written (cache.journal.push (.routed (cache.route name)))

theorem ends_writing_broken
    [Keyed Value] (coherent : cache.Coherent)
    (expressible : ∀ window ∈ settings.refresh,
      window.earliest ≤ window.latest ∧ window.latest ≤ Duration.longest)
    (writing : Writing Value) :
    Ends (writing.action settings) cache (fun _ _ => True)
      (fun fault next =>
        (fault.IsAliasConflict ∧
          Refused (writing.draft cache) cache next) ∨
        (fault = .instantOverflow ∧
          Stopped settings (writing.draft cache) cache next)) := by
  rw [writing.action_eq, ends_discard]
  apply ends_writing coherent writing
  intro journal
  have noted : { cache with journal }.Coherent := coherent.of_eq rfl rfl
  refine (ends_writeDraft_broken noted expressible
    (writing.draft cache)).weaken (fun _ _ => id) ?_
  intro fault next broken
  cases broken with
  | inl refused =>
      obtain ⟨conflict, shards, routes, counters, clock⟩ := refused
      exact Or.inl ⟨conflict, shards, routes, counters, clock⟩
  | inr stopped =>
      obtain ⟨overflow, shards, routes, counters, clock⟩ := stopped
      exact Or.inr ⟨overflow, shards, routes, counters, clock⟩

variable {before next : Cache Value} {draft : Draft Value} {fault : Fault}

/-- What a write that a fault broke off has left behind is what was there
before, if no alias was new and nothing was evicted. -/
theorem unchanged_iff_of_broken
    (coherent : before.Coherent)
    (broken : (fault.IsAliasConflict ∧ Refused draft before next) ∨
      (fault = .instantOverflow ∧ Stopped settings draft before next)) :
    (next.shards = before.shards ∧ next.routes = before.routes) ↔
      before.newcomers draft = [] ∧
        (fault.IsAliasConflict ∨
          before.evictees settings draft.key = []) := by
  cases broken with
  | inl refused =>
      obtain ⟨conflict, refused⟩ := refused
      rw [refused.routes, routesAfter_eq_self_iff]
      simp [refused.shards, conflict]
  | inr stopped =>
      obtain ⟨rfl, stopped⟩ := stopped
      rw [stopped.routes, routesAfter_eq_self_iff,
        stopped.shards_eq_iff coherent]
      simp [Fault.IsAliasConflict, and_comm]

/-- Equal shards, routes and counters answer alike from equal clocks. -/
theorem answersAlike_of_eq
    (settings : Settings) (coherent : before.Coherent)
    (shards : next.shards = before.shards)
    (routes : next.routes = before.routes)
    (counters : next.counters = before.counters) :
    AnswersAlike settings (before.withClock next.clock) next := by
  have reading : (before.withClock next.clock).Coherent :=
    coherent.of_eq rfl rfl
  have later : next.Coherent := coherent.of_eq shards routes
  exact (reading.twins later shards counters rfl fun _ =>
    routes).answersAlike settings

end Broken

/-! ## Faults -/

/-- A write that ended in a fault, of whatever kind, met a conflict or a clock
that cannot be read.  It never touches the counters, and it leaves the shards
and the routes as they were exactly if no alias was new to the cache and, in
case of the clock, nothing had to be evicted.  Then the cache answers as if the
write had never been attempted. -/
theorem broken_write_leaves_no_trace_iff
    [Keyed Value] {settings : Settings} (valid : settings.Valid)
    (expressible : settings.timeToLive ≤ Duration.longest)
    (paddings : Nat → List Nat) (operations : List (Operation Value))
    (writing : Writing Value) {fault : Fault} {next : Cache Value}
    (broke : (writing.action settings).run
        (operate settings (empty settings paddings) operations) =
      .error fault next) :
    let before := operate settings (empty settings paddings) operations
    let draft := writing.draft before
    ((fault.IsAliasConflict ∧ next.clock = before.clock) ∨
        (fault = .instantOverflow ∧
          before.clock.read = (.error .instantOverflow, next.clock))) ∧
      next.counters = before.counters ∧
        ((next.shards = before.shards ∧ next.routes = before.routes) ↔
          before.newcomers draft = [] ∧
            (fault.IsAliasConflict ∨
              before.evictees settings draft.key = [])) ∧
          (before.newcomers draft = [] ∧
              (fault.IsAliasConflict ∨
                before.evictees settings draft.key = []) →
            AnswersAlike settings (before.withClock next.clock) next) := by
  have coherent :
      (operate settings (empty settings paddings) operations).Coherent :=
    (coherent_empty valid paddings).of_runs
      (runs_operate settings (empty settings paddings) operations)
  generalize operate settings (empty settings paddings) operations = before
    at coherent broke ⊢
  intro _ draft
  have ended : (fault.IsAliasConflict ∧ Refused draft before next) ∨
      (fault = .instantOverflow ∧ Stopped settings draft before next) := by
    have ends := ends_writing_broken coherent
      (valid.window_le expressible) writing
    rw [Ends, broke] at ends
    exact ends
  have counters : next.counters = before.counters := by
    cases ended with
    | inl refused => exact refused.2.counters
    | inr stopped => exact stopped.2.counters
  have unchanged := unchanged_iff_of_broken coherent ended
  refine ⟨?_, counters, unchanged, ?_⟩
  · cases ended with
    | inl refused => exact Or.inl ⟨refused.1, refused.2.clock⟩
    | inr stopped => exact Or.inr ⟨stopped.1, stopped.2.clock⟩
  · intro condition
    obtain ⟨shards, routes⟩ := unchanged.mpr condition
    exact answersAlike_of_eq settings coherent shards routes counters

/-- A write of a key whose alias another key has on another shard. -/
def disputed : Writing NameTag :=
  .given ⟨"b", some ⟨"b", ["a"]⟩, ["a"]⟩

theorem broken_write_leaves_no_trace_iff_disputed :
    Settings.twoShards.Valid ∧
      (let before := operate Settings.twoShards
        (empty Settings.twoShards fun _ => []) contested
      let next := final (disputed.action Settings.twoShards) before
      answer (disputed.action Settings.twoShards) before =
          .error (.aliasInOtherShard "a") ∧
        next.shards = before.shards ∧ next.routes = before.routes ∧
          next.counters = before.counters ∧
            AnswersAlike Settings.twoShards before next) := by
  have valid : Settings.twoShards.Valid := by decide
  have broke : answer (disputed.action Settings.twoShards)
      (operate Settings.twoShards (empty Settings.twoShards fun _ => [])
        contested) = .error (.aliasInOtherShard "a") := by
    rfl
  obtain ⟨_, counters, unchanged, alike⟩ :=
    broken_write_leaves_no_trace_iff valid (by decide) (fun _ => [])
      contested disputed (run_of_answer broke)
  have condition : (operate Settings.twoShards
      (empty Settings.twoShards fun _ => []) contested).newcomers
        (disputed.draft (operate Settings.twoShards
          (empty Settings.twoShards fun _ => []) contested)) = [] := by
    decide +kernel
  have kept := unchanged.mpr ⟨condition, .inl trivial⟩
  exact ⟨valid, broke, kept.1, kept.2, counters,
    alike ⟨condition, .inl trivial⟩⟩

/-- Two writes on one shard, of which the first has an alias. -/
def neighbours : List (Act Nat) :=
  [.write ⟨"a", some 0, ["t"]⟩, .write ⟨"b", some 1, []⟩]

/-- A write that meets a conflict has registered the aliases before: here the key
of an entry on another shard, which is no longer found.  A write that cannot
read the clock has evicted an entry before. -/
theorem broken_write_leaves_traces :
    (Settings.twoShards.Valid ∧
      (let before := follow Settings.twoShards
        (empty Settings.twoShards fun _ => []) neighbours
      let draft : Draft Nat := ⟨"d", some 2, ["b", "t"]⟩
      let next := final (writeDraft Settings.twoShards draft) before
      answer (writeDraft Settings.twoShards draft) before =
          .error (.aliasInOtherShard "t") ∧
        answer (lookup Settings.twoShards "b") before =
            .ok (.found 1 false) ∧
          answer (lookup Settings.twoShards "b") next = .ok .absent)) ∧
      ((Settings.tight 10).Valid ∧
        (let before := follow (Settings.tight 10)
          (empty (Settings.tight 10) fun _ => [])
          [.write ⟨"a", some 1, []⟩, .quiet (.layDown [Instant.horizon])]
        let draft : Draft Nat := ⟨"b", some 2, []⟩
        let next := final (writeDraft (Settings.tight 10) draft) before
        answer (writeDraft (Settings.tight 10) draft) before =
            .error .instantOverflow ∧
          answer (lookup (Settings.tight 10) "a")
              (before.withClock next.clock) = .ok (.found 1 false) ∧
            answer (lookup (Settings.tight 10) "a") next =
              .ok .absent)) := by
  exact ⟨⟨by decide, by rfl, by rfl, by rfl⟩,
    ⟨by decide, by rfl, by rfl, by rfl⟩⟩

/-! ## Dropped writes -/

section Dropped

variable {settings : Settings} {cache : Cache Value}

/-- A write meets a conflict exactly if one of its aliases clashes. -/
theorem conflicts_iff
    (coherent : cache.Coherent)
    (expressible : ∀ window ∈ settings.refresh,
      window.earliest ≤ window.latest ∧ window.latest ≤ Duration.longest)
    (draft : Draft Value) :
    cache.Conflicts draft ↔
      ∃ fault : Fault, fault.IsAliasConflict ∧
        answer (writeDraft settings draft) cache = .error fault := by
  have ends := ends_writeDraft_unstored coherent expressible draft
  rw [Ends] at ends
  rw [answer]
  cases run : (writeDraft settings draft).run cache with
  | ok evicted next =>
      rw [run] at ends
      simp [ends.1]
  | error fault next =>
      rw [run] at ends
      rcases ends with ⟨conflict, clash, _⟩ | ⟨rfl, agreed, _⟩
      · simp [clash, conflict]
      · simp [agreed, Fault.IsAliasConflict]

theorem ends_writeDraft_dropped
    (coherent : cache.Coherent)
    (expressible : ∀ window ∈ settings.refresh,
      window.earliest ≤ window.latest ∧ window.latest ≤ Duration.longest)
    {draft : Draft Value} (drops : cache.Drops settings draft.key) :
    Ends (writeDraft settings draft) cache
      (fun evicted next => evicted = false ∧ ¬ cache.Conflicts draft ∧
        Refused draft cache next)
      (fun fault next => fault.IsAliasConflict ∧ cache.Conflicts draft ∧
        Refused draft cache next) := by
  refine (ends_writeDraft_unstored coherent expressible draft).weaken ?_ ?_
  · intro evicted next returned
    obtain ⟨agreed, dropped⟩ := returned
    obtain ⟨nothing, refused⟩ := dropped drops
    exact ⟨nothing, agreed, refused⟩
  · intro fault next broken
    cases broken with
    | inl refused => exact refused
    | inr stopped => exact absurd drops stopped.2.2.1

/-- A dropped write answers false, unless it meets a conflict. -/
theorem answer_of_drops
    (coherent : cache.Coherent)
    (expressible : ∀ window ∈ settings.refresh,
      window.earliest ≤ window.latest ∧ window.latest ≤ Duration.longest)
    {draft : Draft Value} (drops : cache.Drops settings draft.key)
    (agreed : ¬ cache.Conflicts draft) :
    answer (writeDraft settings draft) cache = .ok false := by
  have ends := ends_writeDraft_dropped coherent expressible drops
  rw [Ends] at ends
  rw [answer]
  cases run : (writeDraft settings draft).run cache with
  | ok evicted after =>
      rw [run] at ends
      rw [ends.1]
  | error fault after =>
      rw [run] at ends
      exact absurd ends.2.1 agreed

/-- A refused write does not move its key. -/
theorem Refused.route_key
    {draft : Draft Value} {next : Cache Value}
    (refused : Refused draft cache next) :
    next.route draft.key = cache.route draft.key := by
  have kept : next.routes[draft.key]? = cache.routes[draft.key]? := by
    rw [refused.routes, getElem?_routesAfter_key]
  unfold route
  rw [kept, refused.shards]

/-- A name that a refused write has registered clashes as an alias of any key
on another shard, and did not before. -/
theorem Refused.conflicts_of_newcomer
    (coherent : cache.Coherent) {draft : Draft Value} {next : Cache Value}
    (refused : Refused draft cache next)
    {name : String} (newcomer : name ∈ cache.newcomers draft)
    {key : String} (elsewhere : next.route key ≠ next.route draft.key)
    (value : Option Value) :
    next.Conflicts ⟨key, value, [name]⟩ ∧
      ¬ cache.Conflicts ⟨key, value, [name]⟩ := by
  obtain ⟨admitted, unknown⟩ := List.mem_filter.mp newcomer
  have unregistered : name ∉ cache.routes := by simpa using unknown
  have registered : next.routes[name]? = some (next.route draft.key) := by
    rw [refused.route_key, refused.routes, routesAfter, getElem?_enroll,
      if_pos ⟨admitted, unregistered⟩]
  have apart : name ≠ key := by
    rintro rfl
    exact elsewhere (route_of_registered registered)
  -- Afterwards the name is registered on another shard; before, it was neither
  -- registered nor, as the cache is coherent, bound anywhere.
  constructor
  · refine ⟨name, List.mem_singleton.mpr rfl, apart, .inl ?_⟩
    exact ⟨_, registered, elsewhere.symm⟩
  · rintro ⟨other, member, _, clash⟩
    obtain rfl := List.mem_singleton.mp member
    have unrouted : cache.routes[other]? = none :=
      ExtTreeMap.getElem?_eq_none unregistered
    rcases clash with ⟨owner, found, _⟩ | ⟨shard, seat, owner, bound, _⟩
    · rw [unrouted] at found
      cases found
    · rw [coherent.routed seat bound] at unrouted
      cases unrouted

/-- A newcomer among the aliases of a refused write is told by a later write of
a key on another shard. -/
theorem Refused.tells
    (coherent : cache.Coherent)
    (expressible : ∀ window ∈ settings.refresh,
      window.earliest ≤ window.latest ∧ window.latest ≤ Duration.longest)
    {draft : Draft Value} {next : Cache Value} (later : next.Coherent)
    (refused : Refused draft cache next)
    (inhabited : cache.newcomers draft ≠ [])
    {key : String} (elsewhere : next.route key ≠ next.route draft.key) :
    ¬ AnswersAlike settings cache next := by
  intro alike
  obtain ⟨name, newcomer⟩ := List.exists_mem_of_ne_nil _ inhabited
  obtain ⟨now, before⟩ :=
    refused.conflicts_of_newcomer coherent newcomer elsewhere none
  rw [conflicts_iff later expressible] at now
  have same := alike.write [] ⟨key, none, [name]⟩
  rw [follow_nil, follow_nil] at same
  rw [same, ← conflicts_iff coherent expressible] at now
  exact before now

end Dropped

theorem size_operate
    [Keyed Value] {settings : Settings} (valid : settings.Valid)
    (paddings : Nat → List Nat) (operations : List (Operation Value)) :
    (operate settings (empty settings paddings) operations).shards.size =
      settings.shardCount := by
  obtain ⟨acts, reached⟩ :=
    runs_operate settings (empty settings paddings) operations
  rw [← reached, size_follow (coherent_empty valid paddings)]
  exact Array.size_ofFn

/-- A write to a full shard of a cache that evicts nothing returns false unless
one of its aliases clashes.  It leaves everything as it was but the routes, and
these exactly if none of its aliases is new to the cache.  Then, or where there
is only one shard, the cache answers as if the write had never been attempted;
otherwise it does not, as soon as some key is routed to another shard. -/
theorem dropped_write_leaves_no_trace_iff
    [Keyed Value] {settings : Settings} (valid : settings.Valid)
    (expressible : settings.timeToLive ≤ Duration.longest)
    (paddings : Nat → List Nat) (operations : List (Operation Value))
    (draft : Draft Value)
    (drops : (operate settings (empty settings paddings)
      operations).Drops settings draft.key) :
    let before := operate settings (empty settings paddings) operations
    let next := final (writeDraft settings draft) before
    (if before.Conflicts draft then
        ∃ fault : Fault, fault.IsAliasConflict ∧
          answer (writeDraft settings draft) before = .error fault
      else answer (writeDraft settings draft) before = .ok false) ∧
      (next.shards = before.shards ∧ next.counters = before.counters ∧
        next.clock = before.clock) ∧
        (next.routes = before.routes ↔ before.newcomers draft = []) ∧
          (before.newcomers draft = [] ∨ settings.shardCount = 1 →
            AnswersAlike settings before next) ∧
          (before.newcomers draft ≠ [] →
            (∃ key, next.route key ≠ next.route draft.key) →
              ¬ AnswersAlike settings before next) := by
  have coherent :
      (operate settings (empty settings paddings) operations).Coherent :=
    (coherent_empty valid paddings).of_runs
      (runs_operate settings (empty settings paddings) operations)
  have size : (operate settings (empty settings paddings)
      operations).shards.size = settings.shardCount :=
    size_operate valid paddings operations
  generalize operate settings (empty settings paddings) operations = before
    at coherent size drops ⊢
  intro _ next
  have window := valid.window_le expressible
  have ends := ends_writeDraft_dropped coherent window drops
  have refused : Refused draft before next :=
    ends_iff_final.mp (ends.weaken (fun _ _ returned => returned.2.2)
      (fun _ _ broken => broken.2.2))
  have later : next.Coherent :=
    coherent.of_runs (respects_final
      (respects_write_runs settings draft.key draft.value draft.aliases)
      before)
  refine ⟨?_, ⟨refused.shards, refused.counters, refused.clock⟩, ?_, ?_, ?_⟩
  · split
    next conflicts => exact (conflicts_iff coherent window draft).mp conflicts
    next agreed => exact answer_of_drops coherent window drops agreed
  · rw [refused.routes, routesAfter_eq_self_iff]
  · intro harmless
    -- Routes to an only shard may differ between twins.
    have routes : before.shards.size ≠ 1 → next.routes = before.routes := by
      intro several
      rw [size] at several
      rw [refused.routes, routesAfter_eq_self_iff]
      exact harmless.resolve_right several
    have twins := coherent.twins later refused.shards refused.counters
      refused.clock routes
    exact twins.answersAlike settings
  · intro inhabited elsewhere
    obtain ⟨key, apart⟩ := elsewhere
    exact refused.tells coherent window later inhabited apart

/-- A cache that evicts nothing, with an alias that has been registered and is
no longer bound. -/
def sealed : List (Operation NameTag) :=
  [.act (.write ⟨"d", none, ["t"]⟩), .act (.write ⟨"d", none, []⟩)]

theorem dropped_write_leaves_no_trace_iff_sealed :
    let before := operate (Settings.tight 0)
      (empty (Settings.tight 0) fun _ => []) sealed
    let draft : Draft NameTag := ⟨"e", none, ["t"]⟩
    let next := final (writeDraft (Settings.tight 0) draft) before
    (Settings.tight 0).Valid ∧ before.Drops (Settings.tight 0) "e" ∧
      answer (writeDraft (Settings.tight 0) draft) before = .ok false ∧
        next.routes = before.routes ∧
          AnswersAlike (Settings.tight 0) before next := by
  intro before draft next
  have valid : (Settings.tight 0).Valid := by decide
  have drops : before.Drops (Settings.tight 0) "e" := by decide +kernel
  have known : before.newcomers draft = [] := by decide +kernel
  obtain ⟨answered, _, routes, alike, _⟩ :=
    dropped_write_leaves_no_trace_iff valid (by decide) (fun _ => [])
      sealed draft drops
  rw [if_neg (by decide +kernel)] at answered
  exact ⟨valid, drops, answered, routes.mpr known, alike (.inl known)⟩

/-- A dropped write has registered its alias, here the key of an entry on the
other shard, which is no longer found. -/
theorem dropped_write_leaves_trace :
    (Settings.tight 0).Valid ∧
      (let before := follow (Settings.tight 0)
        (empty (Settings.tight 0) fun _ => [])
        [.write ⟨"d", some 1, []⟩, .write ⟨"a", some 2, []⟩]
      let draft : Draft Nat := ⟨"e", some 3, ["a"]⟩
      let next := final (writeDraft (Settings.tight 0) draft) before
      before.Drops (Settings.tight 0) "e" ∧
        answer (writeDraft (Settings.tight 0) draft) before = .ok false ∧
          answer (lookup (Settings.tight 0) "a") before =
              .ok (.found 2 false) ∧
            answer (lookup (Settings.tight 0) "a") next = .ok .absent) := by
  exact ⟨by decide, by decide +kernel, by rfl, by rfl, by rfl⟩

end Cache

end ReadThrough
