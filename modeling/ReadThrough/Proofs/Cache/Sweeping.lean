import ReadThrough.Proofs.Cache.Ledger

/-!
# Sweeping a cache

A sweep of a shard `Purges` it: what had expired at the sweep's reading of the
clock is gone, and nothing else in the cache has changed but the clock, the
counted evictions and the journal.

A shard is `Current` from an instant when no entry of it expires earlier.  A
sweep makes it so, and as long as no reading of the clock shows an earlier
instant it stays so, for what is stored expires no earlier than its reading.
-/

namespace ReadThrough

open Std (ExtTreeMap)

/-! ## Clocks that do not go back -/

namespace Clock

/-- No reading shows an instant before `start`, unless one is laid down. -/
def NotBefore (start : Instant) (clock : Clock) : Prop :=
  match clock.source with
  | .running => start ≤ clock.latest + 1
  | .manual => start ≤ clock.elapsed
  | .scripted =>
      start ≤ clock.elapsed ∧ ∀ instant ∈ clock.script, start ≤ instant

variable {start : Instant} {clock : Clock}

theorem le_of_reading {instant now : Instant}
    (shown : reading instant = .ok now) (late : start ≤ instant) :
    start ≤ now := by
  rw [reading] at shown
  split at shown
  · cases shown
    exact late
  · cases shown

theorem NotBefore.le_read (notBefore : clock.NotBefore start) {now : Instant}
    (read : clock.read.1 = .ok now) : start ≤ now := by
  obtain ⟨source, elapsed, script, latest⟩ := clock
  cases source with
  | running => exact le_of_reading read notBefore
  | manual => exact le_of_reading read notBefore
  | scripted =>
      cases script with
      | nil => exact le_of_reading read notBefore.1
      | cons instant rest =>
          exact le_of_reading read (notBefore.2 instant List.mem_cons_self)

theorem NotBefore.read (notBefore : clock.NotBefore start) :
    clock.read.2.NotBefore start := by
  obtain ⟨source, elapsed, script, latest⟩ := clock
  cases source with
  | running => exact Nat.le_succ_of_le notBefore
  | manual => exact notBefore
  | scripted =>
      cases script with
      | nil => exact notBefore
      | cons instant rest =>
          exact ⟨notBefore.1, (List.forall_mem_cons.mp notBefore.2).2⟩

theorem NotBefore.advance (notBefore : clock.NotBefore start)
    {duration : Duration} {next : Clock}
    (moved : clock.advance duration = .ok next) : next.NotBefore start := by
  rw [Clock.advance] at moved
  split at moved
  · cases moved
    obtain ⟨source, elapsed, script, latest⟩ := clock
    cases source with
    | running => exact notBefore
    | manual => exact Nat.le_add_right_of_le notBefore
    | scripted => exact ⟨Nat.le_add_right_of_le notBefore.1, notBefore.2⟩
  · cases moved

theorem NotBefore.layDown (notBefore : clock.NotBefore start)
    {readings : List Instant} (late : ∀ instant ∈ readings, start ≤ instant) :
    (clock.layDown readings).NotBefore start := by
  obtain ⟨source, elapsed, script, latest⟩ := clock
  cases source with
  | running => exact notBefore
  | manual => exact notBefore
  | scripted =>
      exact ⟨notBefore.1, List.forall_mem_append.mpr ⟨notBefore.2, late⟩⟩

end Clock

/-- An act lays down no reading before an instant. -/
def Act.LaysFrom {Value : Type} (start : Instant) : Act Value → Prop
  | .quiet (.layDown readings) => ∀ instant ∈ readings, start ≤ instant
  | _ => True

/-- Shards that store the same entries agree on when they expire. -/
theorem Shard.Alike.expiry
    {Value : Type} {left right : Shard Value} (alike : left.Alike right)
    {key : String} {entry : Entry Value}
    (found : right.entries[key]? = some entry) :
    ∃ similar, left.entries[key]? = some similar ∧
      similar.expiresAt = entry.expiresAt := by
  have same := alike.entries key
  rw [found, Option.map_some] at same
  obtain ⟨similar, there, settled⟩ := Option.map_eq_some_iff.mp same.symm
  have expiry : similar.settled.expiresAt = entry.settled.expiresAt :=
    congrArg Entry.expiresAt settled
  exact ⟨similar, there, expiry⟩

namespace Cache

variable {Value Result : Type} {settings : Settings} {cache : Cache Value}
  {start : Instant}

theorem notBefore_changeAll
    (notBefore : cache.clock.NotBefore start)
    (changes : List (Change Value)) :
    (cache.changeAll changes).clock.NotBefore start := by
  induction changes generalizing cache with
  | nil => exact notBefore
  | cons made changes inductionHypothesis =>
      rw [changeAll_cons]
      apply inductionHypothesis
      cases made with
      | read => exact notBefore.read
      | _ => exact notBefore

/-- Whatever a local action does to the clock is to read it. -/
theorem notBefore_of_local
    {action : Action Value Result}
    (isLocal : Local Set.univ Set.univ cache action)
    (notBefore : cache.clock.NotBefore start) :
    (final action cache).clock.NotBefore start := by
  obtain ⟨changes, _, made⟩ := isLocal cache (.refl cache)
  rw [made.left]
  exact notBefore_changeAll notBefore changes

theorem notBefore_quiet
    {silent : Quiet} (notBefore : cache.clock.NotBefore start)
    (lays : (.quiet silent : Act Value).LaysFrom start) :
    (final (silent.action settings) cache).clock.NotBefore start := by
  have everywhere : ∀ {Result : Type} {action : Action Value Result},
      Local Set.univ Set.univ cache action →
        (final (discard action) cache).clock.NotBefore start := by
    intro Result action isLocal
    rw [final_discard]
    exact notBefore_of_local isLocal notBefore
  cases silent with
  | advance duration =>
      have advanced : Ends (advanceClock duration) cache
          (fun _ next => next.clock.NotBefore start)
          (fun _ next => next.clock.NotBefore start) := by
        rw [ends_advanceClock]
        cases moved : cache.clock.advance duration with
        | ok clock => exact notBefore.advance moved
        | error fault => exact notBefore
      exact ends_iff_final.mp advanced
  | layDown readings => exact notBefore.layDown lays
  | emptyJournal => exact notBefore
  | route name => exact everywhere (local_shardIndex (Set.mem_univ name))
  | lookup name =>
      exact everywhere
        (local_lookup settings (Set.mem_univ name) (Set.mem_univ _))
  | peek name =>
      exact everywhere (local_peek (Set.mem_univ name) (Set.mem_univ _))
  | readShard index name =>
      exact everywhere (local_getFrom settings (Set.mem_univ index) name)
  | listShard index =>
      exact everywhere ((local_shardAt (Set.mem_univ index)).bind
        fun _ _ _ => local_readClock.bind fun _ _ _ => local_pure _)

theorem notBefore_after
    {act : Act Value} (notBefore : cache.clock.NotBefore start)
    (lays : act.LaysFrom start) :
    (after settings cache act).clock.NotBefore start := by
  cases act with
  | quiet silent => exact notBefore_quiet notBefore lays
  | write draft =>
      rw [after, Act.action, final_discard]
      exact notBefore_of_local (local_writeDraft settings
        (Set.mem_univ _) (fun _ _ => Set.mem_univ _) (Set.mem_univ _))
        notBefore
  | delete name =>
      rw [after, Act.action, final_discard]
      exact notBefore_of_local
        (local_delete (Set.mem_univ name) (Set.mem_univ _)) notBefore
  | sweep index =>
      rw [after, Act.action, final_discard]
      exact notBefore_of_local (local_sweep (Set.mem_univ index)) notBefore

theorem notBefore_follow
    {acts : List (Act Value)} (notBefore : cache.clock.NotBefore start)
    (lays : ∀ act ∈ acts, act.LaysFrom start) :
    (follow settings cache acts).clock.NotBefore start := by
  induction acts generalizing cache with
  | nil => exact notBefore
  | cons act acts inductionHypothesis =>
      obtain ⟨first, rest⟩ := List.forall_mem_cons.mp lays
      exact inductionHypothesis (notBefore_after notBefore first) rest

/-! ## Shards without entries that expire early -/

/-- No entry of a shard expires before an instant. -/
def Current (start : Instant) (index : Nat) (cache : Cache Value) : Prop :=
  ∀ (shard : Shard Value) (key : String) (entry : Entry Value),
    cache.shards[index]? = some shard →
      shard.entries[key]? = some entry → start ≤ entry.expiresAt

section Current

variable {before next : Cache Value} {index : Nat}

theorem Current.of_shards
    (current : before.Current start index)
    (shards : next.shards = before.shards) : next.Current start index := by
  intro shard key entry seat found
  rw [shards] at seat
  exact current shard key entry seat found

theorem Alike.current
    (alike : Alike before next) (current : before.Current start index) :
    next.Current start index := by
  intro shard key entry seat found
  obtain ⟨earlier, earlierSeat, similar⟩ := alike.symm.shards seat
  obtain ⟨old, oldFound, expiry⟩ := similar.symm.expiry found
  rw [← expiry]
  exact current earlier key old earlierSeat oldFound

/-- A shard that is put back without an entry that expires early. -/
theorem Reseats.current
    {place : Nat} {old new : Shard Value}
    (reseats : Reseats place new before next)
    (current : before.Current start index)
    (seat : before.shards[place]? = some old)
    (entries : ∀ {key : String} {entry : Entry Value},
      new.entries[key]? = some entry →
        start ≤ entry.expiresAt ∨ ∃ similar,
          old.entries[key]? = some similar ∧
            similar.expiresAt = entry.expiresAt) :
    next.Current start index := by
  intro shard key entry found stored
  rw [reseats.shards_eq] at found
  split at found
  next here =>
    cases found
    rcases entries stored with late | ⟨similar, there, expiry⟩
    · exact late
    · rw [← expiry]
      exact current old key similar (here ▸ seat) there
  next => exact current shard key entry found stored

/-- Unless the clock goes back, no act stores an entry that expires before the
instant. -/
theorem Effect.current
    {act : Act Value} (effect : Effect settings before act next)
    (notBefore : before.clock.NotBefore start)
    (current : before.Current start index) : next.Current start index := by
  have kept : ∀ {shard : Shard Value} {keys : List String} {key : String}
      {entry : Entry Value},
      (shard.eraseAll keys).entries[key]? = some entry →
        shard.entries[key]? = some entry := by
    intro shard keys key entry found
    rw [Shard.getElem?_entries_eraseAll] at found
    split at found
    · cases found
    · exact found
  cases effect with
  | quiet alike => exact alike.current current
  | removes seat reseats =>
      exact reseats.current current seat fun found =>
        Or.inr ⟨_, kept found, rfl⟩
  | @writes draft _ shard result seat outcome =>
      cases outcome with
      | conflict clash registers => exact current.of_shards registers.shards
      | dropped refuses claims => exact current.of_shards claims.shards
      | broken room harmless claims alike reseats =>
          refine reseats.current (current.of_shards claims.shards)
            (claims.shards ▸ seat) fun found => Or.inr ?_
          obtain ⟨similar, there, expiry⟩ := alike.expiry found
          exact ⟨similar, kept there, expiry⟩
      | @stored claimed _ now refreshAt padding roomy room claims reading
          refreshTime alike reseats =>
          refine reseats.current (current.of_shards claims.shards)
            (claims.shards ▸ seat) fun found => ?_
          rw [Shard.entries_upsert, ExtTreeMap.getElem?_insert] at found
          split at found
          · -- The new entry lives on from the reading at least.
            cases found
            have shown := notBefore.le_read (congrArg Prod.fst reading)
            exact Or.inl (Nat.le_trans shown (le_deadline now _))
          · obtain ⟨similar, there, expiry⟩ := alike.expiry found
            exact Or.inr ⟨similar, kept there, expiry⟩

/-- Acts leave a shard current. -/
theorem current_follow
    {acts : List (Act Value)} (coherent : before.Coherent)
    (lays : ∀ act ∈ acts, act.LaysFrom start)
    (notBefore : before.clock.NotBefore start)
    (current : before.Current start index) :
    (follow settings before acts).Current start index := by
  induction acts generalizing before with
  | nil => exact current
  | cons act acts inductionHypothesis =>
      obtain ⟨first, rest⟩ := List.forall_mem_cons.mp lays
      have effect := effect_of_act settings coherent act
      exact inductionHypothesis (coherent.after settings act) rest
        (notBefore_after notBefore first) (effect.current notBefore current)

end Current

/-! ## One sweep -/

/-- A sweep of a shard, and all that it changes. -/
structure Purges (index : Nat) (now : Instant) (before next : Cache Value)
    (old new : Shard Value) : Prop where
  seat : before.shards[index]? = some old
  reading : before.clock.read = (.ok now, next.clock)
  reseats : Reseats index new before next
  purged : old.Purged now new
  counted : ∃ number, new.size + number = old.size ∧
    next.counters = before.counters.count (.evicted number)

theorem purges_of_read
    {index : Nat} {old : Shard Value} {now : Instant}
    (coherent : cache.Coherent) (seat : cache.shards[index]? = some old)
    (read : cache.clock.read.1 = .ok now) :
    (∃ number, answer (sweep index) cache = .ok number) ∧
      Purges index now cache (final (sweep index) cache) old
        (old.eraseAll (old.expiredKeys now)) := by
  have swept :=
    ends_iff_answer.mp ((ends_sweep seat).and (ends_sweep_counters seat))
  have within := coherent.shards seat
  cases answered : answer (sweep index) cache with
  | error fault =>
      rw [answered] at swept
      rw [swept.1.1] at read
      cases read
  | ok number =>
      rw [answered] at swept
      obtain ⟨⟨shown, reading, rfl, reseats⟩, counted⟩ := swept
      rw [reading] at read
      cases read
      have fewer := Shard.size_eraseAll_of_nodup
        (Shard.nodup_expiredKeys within now)
        fun _ => Shard.mem_entries_of_mem_expiredKeys within
      exact ⟨⟨_, rfl⟩, seat, reading, reseats,
        Shard.purged_eraseAll within now, _, fewer, counted⟩

/-- A swept shard is current from the sweep's reading on. -/
theorem Purges.current
    {index : Nat} {old new : Shard Value} {now : Instant}
    {before next : Cache Value} (purges : Purges index now before next old new)
    (late : start ≤ now) : next.Current start index := by
  intro shard key entry seat found
  cases purges.reseats.seat.symm.trans seat
  exact Nat.le_trans late (purges.purged.entries.mp found).2

end Cache

end ReadThrough
