import ReadThrough.Proofs.Shard.Race

/-!
# The refresh schedule of an entry

An entry is `Ripe` at an instant if it is alive and due.  A read elects its
reader if the entry is ripe at both readings of the clock, each time as the
shard is by then.  An election puts the next one off: the pause doubles with
every election until there have been ten, and stays the same from then on.

`elections` lists the instants at which the readers of a race are elected.  The
parts of the reads may follow each other in any order and at any readings, and
other entries may change in between: the entry is at every moment what the
elections so far make of it.
-/

namespace ReadThrough

open Std (ExtTreeMap)

namespace Entry

variable {Value : Type} {entry : Entry Value} {now : Instant}

/-! ## Ripe entries -/

/-- The entry is alive and due. -/
def Ripe (entry : Entry Value) (now : Instant) : Prop :=
  now ≤ entry.expiresAt ∧ ∃ due ∈ entry.refreshAt, due < now

instance (entry : Entry Value) (now : Instant) : Decidable (entry.Ripe now) :=
  inferInstanceAs (Decidable (_ ∧ _))

theorem ripe_iff :
    entry.Ripe now ↔
      entry.isExpired now = false ∧ entry.isDue now = true := by
  rw [Ripe, isExpired, isDue, decide_eq_false_iff_not, Nat.not_lt]
  cases entry.refreshAt with
  | none => simp
  | some due => simp

/-- Whoever reads again at the reading of an election finds that the entry has
been put off. -/
theorem not_ripe_postponed
    (entry : Entry Value) (base : Duration) (now : Instant) :
    ¬ (entry.postponed base now).Ripe now := by
  rintro ⟨_, due, set, late⟩
  exact Nat.not_lt.mpr (entry.le_refreshAt_postponed base now due set) late

/-! ## Elections -/

/-- The entry after readers were elected at instants, one after the other. -/
def elected
    (entry : Entry Value) (base : Duration) (instants : List Instant) :
    Entry Value :=
  instants.foldl (fun entry now => entry.postponed base now) entry

variable {base : Duration}

theorem elected_append (early late : List Instant) :
    entry.elected base (early ++ late) =
      (entry.elected base early).elected base late :=
  List.foldl_append

@[simp]
theorem settled_elected (entry : Entry Value) (instants : List Instant) :
    (entry.elected base instants).settled = entry.settled := by
  induction instants generalizing entry with
  | nil => rfl
  | cons now instants inductionHypothesis =>
      exact (inductionHypothesis (entry.postponed base now)).trans
        (entry.settled_postponed base now)

/-- Elections do not change when the entry expires. -/
@[simp]
theorem expiresAt_elected (entry : Entry Value) (instants : List Instant) :
    (entry.elected base instants).expiresAt = entry.expiresAt :=
  (settled_eq_iff.mp (entry.settled_elected instants)).2.2

variable (base) in
theorem retries_elected
    (bounded : entry.retries ≤ mostRetries) (instants : List Instant) :
    (entry.elected base instants).retries =
      min (entry.retries + instants.length) mostRetries := by
  induction instants generalizing entry with
  | nil => exact (Nat.min_eq_left bounded).symm
  | cons now instants inductionHypothesis =>
      have counted : (entry.postponed base now).retries =
          min (entry.retries + 1) mostRetries := rfl
      have later := inductionHypothesis (counted ▸ Nat.min_le_right _ _)
      rw [counted] at later
      rw [List.length_cons]
      exact later.trans (by omega)

/-- The pause no longer grows when elections are no longer counted. -/
theorem backoff_min_mostRetries (base : Duration) (retries : Nat) :
    backoff base (min retries mostRetries) = backoff base retries := by
  have same : min (min retries mostRetries) maxBackoffExponent =
      min retries maxBackoffExponent := by
    simp only [mostRetries, maxBackoffExponent]
    omega
  rw [backoff, backoff, same]

/-- The last of a number of elections sets the refresh time, after a pause that
depends on how many there were before. -/
theorem refreshAt_elected
    (new : entry.retries = 0) (earlier : List Instant) (last : Instant) :
    (entry.elected base (earlier ++ [last])).refreshAt =
      some (deadline last (backoff base earlier.length)) := by
  have counted := retries_elected base
    (new ▸ Nat.zero_le mostRetries) earlier
  rw [new, Nat.zero_add] at counted
  have set : (entry.elected base (earlier ++ [last])).refreshAt =
      some (deadline last
        (backoff base (entry.elected base earlier).retries)) := by
    rw [elected_append]
    rfl
  rw [set, counted, backoff_min_mostRetries]

end Entry

namespace Shard

variable {Value : Type} {shard : Shard Value} {name : String}
  {entry : Entry Value} {now : Instant}

/-! ## The two parts of a read -/

/-- The first part of a read leaves a ripe entry to the second part. -/
theorem glance_of_ripe
    (resolved : shard.resolve name = some entry) (ripe : entry.Ripe now) :
    shard.glance name now = none := by
  obtain ⟨live, due, refresh, late⟩ := ripe
  exact glance_of_due resolved live (Entry.isDue_of_lt refresh late)

/-- It answers for any other entry. -/
theorem glance_of_unripe
    (resolved : shard.resolve name = some entry) (unripe : ¬ entry.Ripe now) :
    ∃ lookup, shard.glance name now = some lookup := by
  rw [Entry.ripe_iff] at unripe
  cases expired : entry.isExpired now with
  | true => exact ⟨.absent, by simp [glance, resolved, expired]⟩
  | false =>
      have early : entry.isDue now = false := by
        simpa [expired] using unripe
      exact ⟨entry.lookup false, by simp [glance, resolved, expired, early]⟩

theorem elect_of_ripe
    (window : RefreshWindow)
    (resolved : shard.resolve name = some entry) (ripe : entry.Ripe now) :
    shard.elect (some window) name now =
      (entry.lookup true,
        shard.adjust (shard.primary name)
          (·.postponed window.retryBase now)) := by
  obtain ⟨live, due, refresh, late⟩ := ripe
  exact elect_of_due window resolved live (Entry.isDue_of_lt refresh late)

/-- Of an entry that is not ripe the second part of a read elects nobody and
changes nothing. -/
theorem elect_of_unripe
    (refresh : Option RefreshWindow)
    (resolved : shard.resolve name = some entry) (unripe : ¬ entry.Ripe now) :
    (shard.elect refresh name now).1.refreshes = false ∧
      (shard.elect refresh name now).2 = shard := by
  rw [Entry.ripe_iff] at unripe
  cases expired : entry.isExpired now with
  | true => simp [elect, resolved, expired, Lookup.refreshes]
  | false =>
      have early : entry.isDue now = false := by
        simpa [expired] using unripe
      simp [elect, resolved, expired, early]

/-- Two shards differ in the marks of the entry under one key at most. -/
structure DiffersInMarks (key : String) (before after : Shard Value) :
    Prop where
  capacity : after.capacity = before.capacity
  keyOfAlias : after.keyOfAlias = before.keyOfAlias
  aliasesOfKey : after.aliasesOfKey = before.aliasesOfKey
  paddings : after.paddings = before.paddings
  settled : after.entries[key]?.map Entry.settled =
    before.entries[key]?.map Entry.settled
  others : ∀ other, other ≠ key →
    after.entries[other]? = before.entries[other]?

theorem DiffersInMarks.refl (key : String) (shard : Shard Value) :
    DiffersInMarks key shard shard :=
  ⟨rfl, rfl, rfl, rfl, rfl, fun _ _ => rfl⟩

theorem differsInMarks_adjust_postponed
    (shard : Shard Value) (key : String) (base : Duration) (now : Instant) :
    DiffersInMarks key shard (shard.adjust key (·.postponed base now)) := by
  refine ⟨rfl, rfl, rfl, rfl, ?_, fun other apart => ?_⟩
  · exact (alike_adjust shard key fun entry =>
      entry.settled_postponed base now).entries key
  · rw [adjust, ExtTreeMap.getElem?_modify]
    simp [Ne.symm apart]

end Shard

namespace Race

variable {Value : Type} {count : Nat}

/-! ## The elections of a race -/

/-- The reader whose part it is. -/
def Part.reader? : Part Value count → Option (Fin count)
  | .glance reader _ => some reader
  | .elect reader _ => some reader
  | .elsewhere _ => none

section Run

variable (window : RefreshWindow) (names : Fin count → String)
  (key : String)

/-- The instant at which a part elects its reader, if it does. -/
def election? (race : Race Value count) :
    Part Value count → Option Instant
  | .elect reader now =>
      match race.readers reader with
      | .due =>
          if (race.shard.elect (some window) (names reader)
              now).1.refreshes then
            some now
          else
            none
      | _ => none
  | _ => none

/-- The instants at which the readers of a race are elected. -/
def elections : Race Value count → List (Part Value count) → List Instant
  | _, [] => []
  | race, part :: parts =>
      (election? window names race part).toList ++
        elections (race.after (some window) names part) parts

/-- What happens elsewhere touches neither the entry under a key nor what the
names of the readers lead to. -/
def Spares (race : Race Value count) : Part Value count → Prop
  | .elsewhere shard =>
      shard.entries[key]? = race.shard.entries[key]? ∧
        ∀ reader, shard.primary (names reader) = key
  | _ => True

/-- A race in which nothing but the reads touches an entry. -/
def Undisturbed : Race Value count → List (Part Value count) → Prop
  | _, [] => True
  | race, part :: parts =>
      Spares names key race part ∧
        Undisturbed (race.after (some window) names part) parts

/-- All readers are led to an entry. -/
structure LeadsTo (entry : Entry Value) (race : Race Value count) :
    Prop where
  stored : race.shard.entries[key]? = some entry
  led : ∀ reader, race.shard.primary (names reader) = key

end Run

variable {window : RefreshWindow} {names : Fin count → String}
  {key : String} {entry : Entry Value} {race : Race Value count}
  {reader : Fin count} {now : Instant}

theorem follow_append
    (refresh : Option RefreshWindow) (race : Race Value count)
    (early late : List (Part Value count)) :
    race.follow refresh names (early ++ late) =
      (race.follow refresh names early).follow refresh names late :=
  List.foldl_append

theorem undisturbed_append
    {early late : List (Part Value count)} :
    Undisturbed window names key race (early ++ late) ↔
      Undisturbed window names key race early ∧
        Undisturbed window names key
          (race.follow (some window) names early) late := by
  induction early generalizing race with
  | nil => simp [Undisturbed, follow]
  | cons part early inductionHypothesis =>
      rw [List.cons_append, Undisturbed, inductionHypothesis, Undisturbed,
        and_assoc]
      rfl

/-- A reader is where it was after the parts of others. -/
theorem readers_after_of_apart
    (refresh : Option RefreshWindow) {part : Part Value count}
    (apart : part.reader? ≠ some reader) :
    (race.after refresh names part).readers reader = race.readers reader := by
  cases part with
  | glance other now =>
      have others : reader ≠ other := fun same =>
        apart (congrArg some same.symm)
      rw [after]
      split
      · split
        · exact readers_move_of_ne _ _ others
        · exact readers_move_of_ne _ _ others
      · rfl
  | elect other now =>
      have others : reader ≠ other := fun same =>
        apart (congrArg some same.symm)
      rw [after]
      split
      · exact readers_move_of_ne _ _ others
      · rfl
  | elsewhere shard => rfl

theorem readers_follow_of_apart
    (refresh : Option RefreshWindow) {parts : List (Part Value count)}
    (apart : ∀ part ∈ parts, part.reader? ≠ some reader) :
    (race.follow refresh names parts).readers reader =
      race.readers reader := by
  induction parts generalizing race with
  | nil => rfl
  | cons part parts inductionHypothesis =>
      obtain ⟨first, others⟩ := List.forall_mem_cons.mp apart
      exact (inductionHypothesis others).trans
        (readers_after_of_apart refresh first)

/-! ## What one part does -/

section LeadsTo

variable (leads : LeadsTo names key entry race)

include leads

theorem LeadsTo.resolve (reader : Fin count) :
    race.shard.resolve (names reader) = some entry := by
  rw [Shard.resolve, leads.led, leads.stored]

/-- The second part of a read elects its reader if the entry is ripe. -/
theorem LeadsTo.election?_elect
    (turn : race.readers reader = .due) (now : Instant) :
    election? window names race (.elect reader now) =
      if entry.Ripe now then some now else none := by
  simp only [election?, turn]
  split
  next elects =>
    rw [if_pos]
    apply Decidable.by_contra
    intro unripe
    have nobody :=
      (Shard.elect_of_unripe (some window) (leads.resolve reader) unripe).1
    rw [nobody] at elects
    cases elects
  next elects =>
    rw [if_neg]
    intro ripe
    rw [Shard.elect_of_ripe window (leads.resolve reader) ripe] at elects
    exact elects (Lookup.refreshes_lookup entry true)

/-- A part of a read puts the entry off if it elects its reader, and else
changes nothing. -/
theorem LeadsTo.shard_after
    (window : RefreshWindow) {part : Part Value count}
    (reads : part.reader?.isSome) :
    (race.after (some window) names part).shard =
      (election? window names race part).elim race.shard fun now =>
        race.shard.adjust key (·.postponed window.retryBase now) := by
  cases part with
  | glance reader now =>
      rw [after]
      split
      · split
        · rfl
        · rfl
      · rfl
  | elect reader now =>
      by_cases turn : race.readers reader = .due
      · rw [leads.election?_elect turn]
        simp only [after, turn, shard_move]
        by_cases ripe : entry.Ripe now
        · rw [Shard.elect_of_ripe window (leads.resolve reader) ripe,
            leads.led, if_pos ripe]
          rfl
        · rw [(Shard.elect_of_unripe (some window) (leads.resolve reader)
            ripe).2, if_neg ripe]
          rfl
      · have passes :
            race.after (some window) names (.elect reader now) = race := by
          rw [after]
          split
          next due => exact absurd due turn
          next => rfl
        have nobody :
            election? window names race (.elect reader now) = none := by
          rw [election?]
          split
          next due => exact absurd due turn
          next => rfl
        rw [passes, nobody]
        rfl
  | elsewhere shard => cases reads

/-- All readers are still led to the entry after a part, and it is what the
election makes of it if there was one. -/
theorem LeadsTo.after
    {part : Part Value count} (spares : Spares names key race part) :
    LeadsTo names key
      (entry.elected window.retryBase
        (election? window names race part).toList)
      (race.after (some window) names part) := by
  by_cases reads : part.reader?.isSome
  · have shard := leads.shard_after window reads
    cases elects : election? window names race part with
    | none =>
        rw [elects] at shard
        refine ⟨?_, fun reader => ?_⟩
        · rw [shard]
          exact leads.stored
        · rw [shard]
          exact leads.led reader
    | some now =>
        rw [elects] at shard
        refine ⟨?_, fun reader => ?_⟩
        · rw [shard]
          simp only [Option.elim_some, Shard.adjust,
            ExtTreeMap.getElem?_modify_self, leads.stored]
          rfl
        · rw [shard]
          exact (Shard.primary_adjust _ _ _ _).trans (leads.led reader)
  · cases part with
    | glance reader now => exact absurd rfl reads
    | elect reader now => exact absurd rfl reads
    | elsewhere shard =>
        obtain ⟨untouched, led⟩ := spares
        exact ⟨untouched.trans leads.stored, led⟩

/-- At every moment of an undisturbed race the entry is what the elections so
far make of it. -/
theorem LeadsTo.follow
    {parts : List (Part Value count)}
    (undisturbed : Undisturbed window names key race parts) :
    LeadsTo names key
      (entry.elected window.retryBase (elections window names race parts))
      (race.follow (some window) names parts) := by
  induction parts generalizing race entry with
  | nil => exact leads
  | cons part parts inductionHypothesis =>
      obtain ⟨spares, later⟩ := undisturbed
      rw [elections, Entry.elected_append]
      exact inductionHypothesis (leads.after spares) later

/-! ## Who is elected -/

theorem LeadsTo.glance
    (turn : race.readers reader = .waiting) (ripe : entry.Ripe now) :
    (race.after (some window) names (.glance reader now)).readers reader =
      .due := by
  simp only [Race.after, turn,
    Shard.glance_of_ripe (leads.resolve reader) ripe, readers_move_self]

theorem LeadsTo.glance_unripe
    (turn : race.readers reader = .waiting) (unripe : ¬ entry.Ripe now) :
    ∃ lookup, lookup.refreshes = false ∧
      (race.after (some window) names (.glance reader now)).readers reader =
        .answered lookup := by
  obtain ⟨lookup, answered⟩ :=
    Shard.glance_of_unripe (leads.resolve reader) unripe
  refine ⟨lookup, Shard.refreshes_of_glance answered, ?_⟩
  simp only [Race.after, turn, answered, readers_move_self]

theorem LeadsTo.elect
    (turn : race.readers reader = .due) (now : Instant) :
    ∃ lookup, (lookup.refreshes = true ↔ entry.Ripe now) ∧
      (race.after (some window) names (.elect reader now)).readers reader =
        .answered lookup := by
  refine ⟨(race.shard.elect (some window) (names reader) now).1, ?_, ?_⟩
  · constructor
    · intro elects
      apply Decidable.by_contra
      intro unripe
      rw [(Shard.elect_of_unripe (some window) (leads.resolve reader)
        unripe).1] at elects
      cases elects
    · intro ripe
      rw [Shard.elect_of_ripe window (leads.resolve reader) ripe]
      exact Lookup.refreshes_lookup entry true
  · simp only [Race.after, turn, readers_move_self]

/-- A reader is elected if and only if the entry is ripe at both of its readings,
each time as the elections so far have left it. -/
theorem LeadsTo.elected_iff
    (waiting : race.readers reader = .waiting)
    {early middle late : List (Part Value count)} {first second : Instant}
    (undisturbed : Undisturbed window names key race
      ((early ++ .glance reader first :: middle) ++
        .elect reader second :: late))
    (unbegun : ∀ part ∈ early, part.reader? ≠ some reader)
    (pending : ∀ part ∈ middle, part.reader? ≠ some reader) :
    ∃ lookup,
      (race.follow (some window) names
        ((early ++ .glance reader first :: middle) ++
          .elect reader second :: late)).readers reader =
        .answered lookup ∧
      (lookup.refreshes = true ↔
        (entry.elected window.retryBase
          (elections window names race early)).Ripe first ∧
        (entry.elected window.retryBase
          (elections window names race
            (early ++ .glance reader first :: middle))).Ripe second) := by
  obtain ⟨meanwhile, _⟩ := undisturbed_append.mp undisturbed
  obtain ⟨before, _⟩ := undisturbed_append.mp meanwhile
  have met := leads.follow before
  have found := leads.follow meanwhile
  have turn : (race.follow (some window) names early).readers reader =
      .waiting :=
    (readers_follow_of_apart (some window) unbegun).trans waiting
  have glanced : (race.follow (some window) names
      (early ++ .glance reader first :: middle)).readers reader =
        ((race.follow (some window) names early).after (some window) names
          (.glance reader first)).readers reader := by
    rw [follow_append]
    exact readers_follow_of_apart (some window) pending
  rw [follow_append]
  by_cases ripe : (entry.elected window.retryBase
      (elections window names race early)).Ripe first
  · have due := glanced.trans (met.glance turn ripe)
    obtain ⟨lookup, elects, answered⟩ := found.elect due second
    refine ⟨lookup, answered_follow (some window) names late answered, ?_⟩
    rw [elects]
    exact (and_iff_right ripe).symm
  · obtain ⟨lookup, nobody, answered⟩ := met.glance_unripe turn ripe
    refine ⟨lookup, answered_follow (some window) names
      (.elect reader second :: late) (glanced.trans answered), ?_⟩
    simp [nobody, ripe]

end LeadsTo

/-! ## Races on schedule -/

/-- The reads of a race keep to the schedule of an entry that has just been
written. -/
structure OnSchedule
    (window : RefreshWindow) (names : Fin count → String) (key : String)
    (entry : Entry Value) (race : Race Value count)
    (parts : List (Part Value count)) : Prop where
  /-- A reader is elected if and only if the entry is ripe at both of its
  readings, each time as it is stored by then. -/
  elects : ∀ (reader : Fin count) (early middle late : List (Part Value count))
    (first second : Instant),
    parts = (early ++ .glance reader first :: middle) ++
        .elect reader second :: late →
      race.readers reader = .waiting →
      (∀ part ∈ early, part.reader? ≠ some reader) →
      (∀ part ∈ middle, part.reader? ≠ some reader) →
        ∃ met found lookup,
          (race.follow (some window) names early).shard.entries[key]? =
              some met ∧
            (race.follow (some window) names
              (early ++ .glance reader first :: middle)).shard.entries[key]? =
                some found ∧
            (race.follow (some window) names parts).readers reader =
              .answered lookup ∧
            (lookup.refreshes = true ↔ met.Ripe first ∧ found.Ripe second)
  /-- The refresh time follows from the last election and from how many there
  were before it. -/
  puts_off : ∀ early late, parts = early ++ late →
    ∃ current,
      (race.follow (some window) names early).shard.entries[key]? =
          some current ∧
        current.settled = entry.settled ∧
        current.retries = min (elections window names race early).length
          Entry.mostRetries ∧
        (elections window names race early = [] →
          current.refreshAt = entry.refreshAt) ∧
        ∀ earlier last,
          elections window names race early = earlier ++ [last] →
            current.refreshAt =
              some (deadline last
                (window.retryBase.scale (Nat.pow 2 (min earlier.length 10))))
  /-- A read changes the marks of the entry at most, and nothing where it elects
  nobody. -/
  reads : ∀ early part late, parts = early ++ part :: late →
    part.reader?.isSome →
      Shard.DiffersInMarks key (race.follow (some window) names early).shard
          ((race.follow (some window) names early).after (some window) names
            part).shard ∧
        (election? window names (race.follow (some window) names early)
            part = none →
          ((race.follow (some window) names early).after (some window) names
              part).shard =
            (race.follow (some window) names early).shard)

/-- Undisturbed reads of an entry that has not been put off keep to its
schedule. -/
theorem onSchedule
    (leads : LeadsTo names key entry race) (new : entry.retries = 0)
    {parts : List (Part Value count)}
    (undisturbed : Undisturbed window names key race parts) :
    OnSchedule window names key entry race parts where
  elects reader early middle late first second shape waiting unbegun
      pending := by
    subst shape
    obtain ⟨meanwhile, _⟩ := undisturbed_append.mp undisturbed
    obtain ⟨before, _⟩ := undisturbed_append.mp meanwhile
    obtain ⟨lookup, answered, elects⟩ :=
      leads.elected_iff waiting undisturbed unbegun pending
    exact ⟨_, _, lookup, (leads.follow before).stored,
      (leads.follow meanwhile).stored, answered, elects⟩
  puts_off early late shape := by
    subst shape
    obtain ⟨before, _⟩ := undisturbed_append.mp undisturbed
    refine ⟨_, (leads.follow before).stored, Entry.settled_elected _ _, ?_,
      ?_, ?_⟩
    · rw [Entry.retries_elected _ (new ▸ Nat.zero_le _), new, Nat.zero_add]
    · intro nobody
      rw [nobody]
      rfl
    · intro earlier last elections
      rw [elections, Entry.refreshAt_elected new]
      rfl
  reads early part late shape isRead := by
    subst shape
    obtain ⟨before, _⟩ := undisturbed_append.mp undisturbed
    have shard := (leads.follow before).shard_after window isRead
    rw [shard]
    cases election? window names (race.follow (some window) names early)
        part with
    | none => exact ⟨.refl key _, fun _ => rfl⟩
    | some now =>
        exact ⟨Shard.differsInMarks_adjust_postponed _ key _ now, nofun⟩

end Race

end ReadThrough
