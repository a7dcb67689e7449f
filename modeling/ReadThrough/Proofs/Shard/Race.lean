import Mathlib.Logic.Function.Basic
import ReadThrough.Cache.Read
import ReadThrough.Proofs.Ending
import ReadThrough.Proofs.Shard.Reading

/-!
# Readers that race for an entry

A read of an entry that is due lets go of the shard between its two parts.  In
a `Race` any number of reads are under way, and their parts follow each other
in any order; other things may happen to the shard in between.

A race is `Fair` to an entry if nothing else touches the entry or what the names
of the readers lead to, every reading of the clock finds the entry due and alive
as it was at first, and no reading lies after the refresh time that an elected
reader has set.  Such a race is
`Open` until the first reader comes to its second part.  That reader has `Won`
from then on: all others see the refresh time that it has set.
-/

namespace ReadThrough

open Std (ExtTreeMap)

namespace Entry

variable {Value : Type}

/-- A refresh time that an election sets is not in the past. -/
theorem le_refreshAt_postponed
    (entry : Entry Value) (retryBase : Duration) (now : Instant) :
    ∀ limit ∈ (entry.postponed retryBase now).refreshAt, now ≤ limit := by
  intro limit set
  rw [postponed, Option.mem_some_iff] at set
  rw [← set]
  exact le_deadline now _

theorem lookup_postponed
    (entry : Entry Value) (retryBase : Duration) (now : Instant)
    (refresh : Bool) :
    (entry.postponed retryBase now).lookup refresh = entry.lookup refresh :=
  rfl

end Entry

/-- How far a read has come. -/
inductive Reader (Value : Type) where
  /-- Its first part is to come. -/
  | waiting
  /-- Its first part has found the entry due. -/
  | due
  /-- It has answered. -/
  | answered (lookup : Lookup Value)
  deriving DecidableEq

/-- A shard and the reads that are under way on it. -/
structure Race (Value : Type) (count : Nat) where
  /-- The shard as it is at the moment. -/
  shard : Shard Value
  /-- The reads. -/
  readers : Fin count → Reader Value

namespace Race

/-- What can happen next in a race. -/
inductive Part (Value : Type) (count : Nat) where
  /-- The first part of a read. -/
  | glance (reader : Fin count) (now : Instant)
  /-- The second part of a read. -/
  | elect (reader : Fin count) (now : Instant)
  /-- Something else makes another shard of it. -/
  | elsewhere (shard : Shard Value)

/-- The reading of the clock that a part takes. -/
def Part.reading? {Value : Type} {count : Nat} :
    Part Value count → Option Instant
  | .glance _ now => some now
  | .elect _ now => some now
  | .elsewhere _ => none

variable {Value : Type} {count : Nat}

/-- A race that nobody has begun to read in. -/
def start (shard : Shard Value) : Race Value count :=
  { shard, readers := fun _ => .waiting }

/-- The race with one reader at another point. -/
def move
    (race : Race Value count) (reader : Fin count) (point : Reader Value) :
    Race Value count :=
  { race with readers := Function.update race.readers reader point }

@[simp]
theorem shard_move
    (race : Race Value count) (reader : Fin count) (point : Reader Value) :
    (race.move reader point).shard = race.shard :=
  rfl

@[simp]
theorem readers_move_self
    (race : Race Value count) (reader : Fin count) (point : Reader Value) :
    (race.move reader point).readers reader = point := by
  simp only [move, Function.update_self]

theorem readers_move_of_ne
    (race : Race Value count) {reader other : Fin count}
    (point : Reader Value) (apart : other ≠ reader) :
    (race.move reader point).readers other = race.readers other := by
  simp only [move, Function.update_of_ne apart]

section Run

variable (refresh : Option RefreshWindow) (names : Fin count → String)

/-- The race after one part.  A read that is not at a part passes over it: it
may have answered with its first part. -/
def after (race : Race Value count) : Part Value count → Race Value count
  | .glance reader now =>
      match race.readers reader with
      | .waiting =>
          match race.shard.glance (names reader) now with
          | some lookup => race.move reader (.answered lookup)
          | none => race.move reader .due
      | _ => race
  | .elect reader now =>
      match race.readers reader with
      | .due =>
          let (lookup, shard) := race.shard.elect refresh (names reader) now
          { race with shard }.move reader (.answered lookup)
      | _ => race
  | .elsewhere shard => { race with shard }

/-- The race after a number of parts. -/
def follow (race : Race Value count) (parts : List (Part Value count)) :
    Race Value count :=
  parts.foldl (after refresh names) race

/-- The refresh time that a reader sets if its second part elects it now. -/
def limit? (race : Race Value count) (reader : Fin count) (now : Instant) :
    Option Instant :=
  let (lookup, shard) := race.shard.elect refresh (names reader) now
  if lookup.refreshes then
    (shard.resolve (names reader)).bind (·.refreshAt)
  else
    none

end Run

/-! ## Reads that nobody comes between -/

/-- A read of a cache is a race of one reader.  The second part takes a reading
of its own only if the first one does not answer. -/
theorem ends_getFrom_alone
    {settings : Settings} {cache : Cache Value} {index : Nat}
    {shard : Shard Value} (seat : cache.shards[index]? = some shard)
    (name : String) :
    Cache.Ends (Cache.getFrom settings index name) cache
      (fun lookup next =>
        ∃ (first second : Instant) (race : Race Value 1),
          (start shard).follow settings.refresh (fun _ => name)
              [.glance 0 first, .elect 0 second] = race ∧
            race.readers 0 = .answered lookup ∧
              next.shards[index]? = some race.shard)
      (fun _ next => next.shards = cache.shards) := by
  rw [Cache.getFrom, Cache.ends_bind, Cache.ends_shardAt, seat]
  simp only [Cache.ends_bind, Cache.ends_readClock]
  split
  next first clock _ =>
    cases glance : shard.glance name first with
    | some lookup =>
        refine ⟨first, first, _, rfl, ?_, ?_⟩
        · simp [follow, after, start, glance]
        · have kept : (cache.withClock clock).shards[index]? =
              some shard := seat
          simpa [follow, after, start, glance] using kept
    | none =>
        simp only [Cache.ends_bind, Cache.ends_readClock]
        split
        next second later _ =>
          simp only [Cache.ends_putShard, Cache.ends_pure]
          have seatLater :
              ((cache.withClock clock).withClock later).shards[index]? =
                some shard := seat
          refine ⟨first, second, _, rfl, ?_, ?_⟩
          · simp [follow, after, start, glance]
          · rw [Cache.getElem?_shards_withShard seatLater, if_pos rfl]
            simp [follow, after, start, glance]
        next => rfl
  next => rfl

/-- Every reader comes to both of its parts. -/
def Complete (parts : List (Part Value count)) : Prop :=
  ∀ reader, ∃ early first middle second late,
    parts = early ++ .glance reader first ::
      (middle ++ .elect reader second :: late)

/-! ## All reads answer -/

section Answers

variable (refresh : Option RefreshWindow) (names : Fin count → String)
  {race : Race Value count} {reader : Fin count}

theorem answered_after
    {lookup : Lookup Value} (part : Part Value count)
    (answered : race.readers reader = .answered lookup) :
    (race.after refresh names part).readers reader = .answered lookup := by
  have apart : ∀ {other}, race.readers other = .waiting ∨
      race.readers other = .due → reader ≠ other := by
    rintro other pending rfl
    rw [answered] at pending
    cases pending with
    | inl waiting => cases waiting
    | inr due => cases due
  cases part with
  | glance other now =>
      rw [after]
      split
      next waiting =>
        split
        · rwa [readers_move_of_ne _ _ (apart (.inl waiting))]
        · rwa [readers_move_of_ne _ _ (apart (.inl waiting))]
      next => exact answered
  | elect other now =>
      rw [after]
      split
      next due => rwa [readers_move_of_ne _ _ (apart (.inr due))]
      next => exact answered
  | elsewhere shard => exact answered

theorem answered_follow
    {lookup : Lookup Value} (parts : List (Part Value count))
    (answered : race.readers reader = .answered lookup) :
    (race.follow refresh names parts).readers reader = .answered lookup := by
  induction parts generalizing race with
  | nil => exact answered
  | cons part rest inductionHypothesis =>
      exact inductionHypothesis (answered_after refresh names part answered)

/-- A reader that has begun never waits again. -/
theorem begun_after
    (part : Part Value count) (begun : race.readers reader ≠ .waiting) :
    (race.after refresh names part).readers reader ≠ .waiting := by
  have moved : ∀ (changed : Race Value count) other point,
      changed.readers = race.readers → point ≠ .waiting →
        (changed.move other point).readers reader ≠ .waiting := by
    intro changed other point same going
    by_cases itself : reader = other
    · rwa [itself, readers_move_self]
    · rwa [readers_move_of_ne _ _ itself, same]
  cases part with
  | glance other now =>
      rw [after]
      split
      · split
        · exact moved race other _ rfl nofun
        · exact moved race other _ rfl nofun
      · exact begun
  | elect other now =>
      rw [after]
      split
      · exact moved _ other _ rfl nofun
      · exact begun
  | elsewhere shard => exact begun

theorem begun_follow
    (parts : List (Part Value count))
    (begun : race.readers reader ≠ .waiting) :
    (race.follow refresh names parts).readers reader ≠ .waiting := by
  induction parts generalizing race with
  | nil => exact begun
  | cons part rest inductionHypothesis =>
      exact inductionHypothesis (begun_after refresh names part begun)

theorem begun_of_glance (race : Race Value count) (now : Instant) :
    (race.after refresh names (.glance reader now)).readers reader ≠
      .waiting := by
  rw [after]
  split
  · split
    · rw [readers_move_self]
      nofun
    · rw [readers_move_self]
      nofun
  next begun => exact begun

theorem answered_of_elect
    (now : Instant) (begun : race.readers reader ≠ .waiting) :
    ∃ lookup, (race.after refresh names (.elect reader now)).readers reader =
      .answered lookup := by
  cases point : race.readers reader with
  | waiting => exact absurd point begun
  | due =>
      simp only [after, point, readers_move_self]
      exact ⟨_, rfl⟩
  | answered lookup =>
      exact ⟨lookup, answered_after refresh names _ point⟩

/-- A read that comes to both of its parts answers, whatever happens. -/
theorem answered_of_complete
    {parts : List (Part Value count)} (complete : Complete parts)
    (race : Race Value count) (reader : Fin count) :
    ∃ lookup, (race.follow refresh names parts).readers reader =
      .answered lookup := by
  obtain ⟨early, first, middle, second, late, rfl⟩ := complete reader
  have glanced : ((race.follow refresh names early).after refresh names
      (.glance reader first)).readers reader ≠ .waiting :=
    begun_of_glance refresh names (race.follow refresh names early) first
  have begun := begun_follow refresh names middle glanced
  obtain ⟨lookup, answered⟩ := answered_of_elect refresh names second begun
  refine ⟨lookup, ?_⟩
  have told := answered_follow refresh names late answered
  simpa only [follow, List.foldl_append, List.foldl_cons] using told

end Answers

/-! ## Fair races -/

section Fair

variable (window : RefreshWindow) (names : Fin count → String)
  (key : String) (entry : Entry Value) (due : Instant)

/-- What a race that is fair to an entry asks of its next part, given the parts
that will follow. -/
def Allows (race : Race Value count) :
    Part Value count → List (Part Value count) → Prop
  | .glance _ now, _ => due < now ∧ now ≤ entry.expiresAt
  | .elect reader now, rest =>
      (due < now ∧ now ≤ entry.expiresAt) ∧
        (race.readers reader = .due →
          ∀ limit ∈ race.limit? (some window) names reader now,
            ∀ reading ∈ rest.filterMap Part.reading?, reading ≤ limit)
  | .elsewhere shard, _ =>
      shard.entries[key]? = race.shard.entries[key]? ∧
        ∀ reader, shard.primary (names reader) = key

/-- A race in which all parts are fair to an entry: nothing but the reads
touches it, and all readings of the clock lie in its refresh window. -/
def Fair : Race Value count → List (Part Value count) → Prop
  | _, [] => True
  | race, part :: rest =>
      Allows window names key entry due race part rest ∧
        Fair (race.after (some window) names part) rest

instance [DecidableEq Value]
    (race : Race Value count) (part : Part Value count)
    (rest : List (Part Value count)) :
    Decidable (Allows window names key entry due race part rest) :=
  match part with
  | .glance _ _ => inferInstanceAs (Decidable (_ ∧ _))
  | .elect _ _ => inferInstanceAs (Decidable ((_ ∧ _) ∧ (_ → _)))
  | .elsewhere _ => inferInstanceAs (Decidable (_ ∧ _))

instance decidableFair [DecidableEq Value]
    (race : Race Value count) (parts : List (Part Value count)) :
    Decidable (Fair window names key entry due race parts) :=
  match parts with
  | [] => inferInstanceAs (Decidable True)
  | part :: rest =>
      have := decidableFair (race.after (some window) names part) rest
      inferInstanceAs (Decidable
        (Allows window names key entry due race part rest ∧
          Fair window names key entry due
            (race.after (some window) names part) rest))

/-- Nobody has answered yet. -/
structure Open (race : Race Value count) : Prop where
  stored : race.shard.entries[key]? = some entry
  led : ∀ reader, race.shard.primary (names reader) = key
  unanswered : ∀ reader lookup, race.readers reader ≠ .answered lookup

/-- One reader has been elected, and nobody else is. -/
structure Won
    (winner : Fin count) (elected : Instant) (race : Race Value count) :
    Prop where
  stored : race.shard.entries[key]? =
    some (entry.postponed window.retryBase elected)
  led : ∀ reader, race.shard.primary (names reader) = key
  told : race.readers winner = .answered (entry.lookup true)
  others : ∀ reader lookup, reader ≠ winner →
    race.readers reader = .answered lookup → lookup = entry.lookup false

variable {window names key entry due} {race : Race Value count}
  {reader winner : Fin count} {now elected : Instant}

theorem Open.resolve
    (fresh : Open names key entry race) (reader : Fin count) :
    race.shard.resolve (names reader) = some entry := by
  rw [Shard.resolve, fresh.led, fresh.stored]

theorem Won.resolve
    (won : Won window names key entry winner elected race)
    (reader : Fin count) :
    race.shard.resolve (names reader) =
      some (entry.postponed window.retryBase elected) := by
  rw [Shard.resolve, won.led, won.stored]

/-- The refresh time that an elected reader sets is not in the past, not even
where it is cut off at the horizon. -/
theorem le_limit?
    (race : Race Value count) (reader : Fin count) (now : Instant) :
    ∀ limit ∈ race.limit? (some window) names reader now, now ≤ limit := by
  intro limit set
  rw [Race.limit?] at set
  cases resolved : race.shard.resolve (names reader) with
  | none => simp [Shard.elect, resolved, Lookup.refreshes] at set
  | some found =>
      by_cases expired : found.isExpired now
      · simp [Shard.elect, resolved, expired, Lookup.refreshes] at set
      · by_cases late : found.isDue now
        · simp only [Shard.elect, resolved, expired, late, if_true,
            Bool.false_eq_true, if_false, Lookup.refreshes_lookup,
            Shard.resolve_adjust_primary, Option.map_some,
            Option.bind_some] at set
          exact found.le_refreshAt_postponed window.retryBase now limit set
        · simp [Shard.elect, resolved, expired, late] at set

/-- Reads at one instant at which the entry is alive and due are fair, if
nothing else happens. -/
theorem fair_of_instant
    (late : due < now) (live : now ≤ entry.expiresAt)
    {parts : List (Part Value count)}
    (still : ∀ part ∈ parts, part.reading? = some now)
    (race : Race Value count) :
    Fair window names key entry due race parts := by
  induction parts generalizing race with
  | nil => trivial
  | cons part rest inductionHypothesis =>
      have stillLater : ∀ part ∈ rest, part.reading? = some now :=
        fun part there => still part (List.mem_cons_of_mem _ there)
      refine ⟨?_, inductionHypothesis stillLater _⟩
      have taken := still part List.mem_cons_self
      cases part with
      | glance reader first =>
          cases taken
          exact ⟨late, live⟩
      | elect reader second =>
          cases taken
          refine ⟨⟨late, live⟩, fun _ limit set reading member => ?_⟩
          obtain ⟨part, there, again⟩ := List.mem_filterMap.mp member
          cases (stillLater part there).symm.trans again
          exact race.le_limit? reader now limit set
      | elsewhere shard => cases taken

/-! ## Before the election -/

theorem Open.glance
    (fresh : Open names key entry race) (refresh : entry.refreshAt = some due)
    (late : due < now) (live : now ≤ entry.expiresAt) :
    Open names key entry
      (race.after (some window) names (.glance reader now)) := by
  have silent : race.shard.glance (names reader) now = none :=
    Shard.glance_of_due (fresh.resolve reader) live
      (Entry.isDue_of_lt refresh late)
  rw [after]
  split
  · rw [silent]
    refine ⟨fresh.stored, fresh.led, ?_⟩
    intro other lookup
    by_cases itself : other = reader
    · rw [itself, readers_move_self]
      nofun
    · rw [readers_move_of_ne _ _ itself]
      exact fresh.unanswered other lookup
  · exact fresh

/-- The first reader that comes to its second part is elected. -/
theorem Open.elect
    (fresh : Open names key entry race) (refresh : entry.refreshAt = some due)
    (late : due < now) (live : now ≤ entry.expiresAt)
    (turn : race.readers reader = .due) :
    Won window names key entry reader now
      (race.after (some window) names (.elect reader now)) := by
  have elects := Shard.elect_of_due window (fresh.resolve reader) live
    (Entry.isDue_of_lt refresh late)
  rw [fresh.led reader] at elects
  simp only [after, turn, elects]
  refine ⟨?_, ?_, readers_move_self _ _ _, ?_⟩
  · rw [shard_move, Shard.adjust, ExtTreeMap.getElem?_modify_self,
      fresh.stored, Option.map_some]
  · intro other
    rw [shard_move, Shard.primary_adjust, fresh.led other]
  · intro other lookup apart answered
    rw [readers_move_of_ne _ _ apart] at answered
    exact absurd answered (fresh.unanswered other lookup)

theorem Open.limit?
    (fresh : Open names key entry race) (refresh : entry.refreshAt = some due)
    (late : due < now) (live : now ≤ entry.expiresAt) :
    race.limit? (some window) names reader now =
      (entry.postponed window.retryBase now).refreshAt := by
  have elects := Shard.elect_of_due window (fresh.resolve reader) live
    (Entry.isDue_of_lt refresh late)
  simp only [Race.limit?, elects, Lookup.refreshes_lookup, if_true,
    Shard.resolve_adjust_primary, fresh.resolve reader, Option.map_some,
    Option.bind_some]

/-! ## After the election -/

section Won

variable (won : Won window names key entry winner elected race)

include won

/-- A reader other than the winner may answer what is not elected. -/
theorem Won.tell
    (apart : reader ≠ winner) :
    Won window names key entry winner elected
      (race.move reader (.answered (entry.lookup false))) := by
  refine ⟨won.stored, won.led, ?_, ?_⟩
  · rw [readers_move_of_ne _ _ apart.symm]
    exact won.told
  · intro other lookup others answered
    by_cases itself : other = reader
    · rw [itself, readers_move_self] at answered
      cases answered
      rfl
    · rw [readers_move_of_ne _ _ itself] at answered
      exact won.others other lookup others answered

/-- Once a reader is elected, a part at or before the refresh time that it has
set elects nobody. -/
theorem Won.after
    {part : Part Value count} {rest : List (Part Value count)}
    (allowed : Allows window names key entry due race part rest)
    (early : ∀ limit ∈ (entry.postponed window.retryBase elected).refreshAt,
      ∀ reading ∈ part.reading?, reading ≤ limit) :
    Won window names key entry winner elected
      (race.after (some window) names part) := by
  cases part with
  | glance reader now =>
      have silent := Shard.glance_of_resolve (won.resolve reader) allowed.2
        fun limit set => early limit set now rfl
      rw [Entry.lookup_postponed] at silent
      rw [Race.after]
      split
      next waiting =>
        rw [silent]
        apply won.tell
        rintro rfl
        cases waiting.symm.trans won.told
      next => exact won
  | elect reader now =>
      have silent := Shard.elect_of_early (some window)
        (won.resolve reader) allowed.1.2
        fun limit set => early limit set now rfl
      rw [Entry.lookup_postponed] at silent
      rw [Race.after]
      split
      next turn =>
        rw [silent]
        apply won.tell
        rintro rfl
        cases turn.symm.trans won.told
      next => exact won
  | elsewhere shard =>
      obtain ⟨untouched, led⟩ := allowed
      exact ⟨untouched.trans won.stored, led, won.told, won.others⟩

theorem Won.follow
    {parts : List (Part Value count)}
    (fair : Fair window names key entry due race parts)
    (early : ∀ limit ∈ (entry.postponed window.retryBase elected).refreshAt,
      ∀ reading ∈ parts.filterMap Part.reading?, reading ≤ limit) :
    Won window names key entry winner elected
      (race.follow (some window) names parts) := by
  induction parts generalizing race with
  | nil => exact won
  | cons part rest inductionHypothesis =>
      obtain ⟨allowed, remaining⟩ := fair
      have next := won.after allowed fun limit set reading taken =>
        early limit set reading
          (List.mem_filterMap.mpr ⟨part, List.mem_cons_self, taken⟩)
      apply inductionHypothesis next remaining
      intro limit set reading member
      obtain ⟨later, there, taken⟩ := List.mem_filterMap.mp member
      exact early limit set reading
        (List.mem_filterMap.mpr
          ⟨later, List.mem_cons_of_mem part there, taken⟩)

end Won

/-- A fair race stays open unless some reader has won it. -/
theorem Open.follow
    (fresh : Open names key entry race) (refresh : entry.refreshAt = some due)
    {parts : List (Part Value count)}
    (fair : Fair window names key entry due race parts) :
    Open names key entry (race.follow (some window) names parts) ∨
      ∃ winner elected, .elect winner elected ∈ parts ∧
        Won window names key entry winner elected
          (race.follow (some window) names parts) := by
  induction parts generalizing race with
  | nil => exact Or.inl fresh
  | cons part rest inductionHypothesis =>
      obtain ⟨allowed, remaining⟩ := fair
      have later : Open names key entry
          (race.after (some window) names part) →
          Open names key entry
              (race.follow (some window) names (part :: rest)) ∨
            ∃ winner elected, .elect winner elected ∈ part :: rest ∧
              Won window names key entry winner elected
                (race.follow (some window) names (part :: rest)) := by
        intro still
        refine (inductionHypothesis still remaining).imp id ?_
        rintro ⟨winner, elected, member, won⟩
        exact ⟨winner, elected, List.mem_cons_of_mem part member, won⟩
      -- Only the second part of a reader that found the entry due decides.
      cases part with
      | glance reader now =>
          exact later (fresh.glance refresh allowed.1 allowed.2)
      | elect reader now =>
          obtain ⟨⟨late, live⟩, prompt⟩ := allowed
          by_cases turn : race.readers reader = .due
          · have won : Won window names key entry reader now
                (race.after (some window) names (.elect reader now)) :=
              fresh.elect refresh late live turn
            have limit : race.limit? (some window) names reader now =
                (entry.postponed window.retryBase now).refreshAt :=
              fresh.limit? refresh late live
            rw [limit] at prompt
            exact Or.inr ⟨reader, now, List.mem_cons_self,
              won.follow remaining (prompt turn)⟩
          · have idle : race.after (some window) names (.elect reader now) =
                race := by
              rw [Race.after]
              split
              next due => exact absurd due turn
              next => rfl
            exact later (by rwa [idle])
      | elsewhere shard =>
          obtain ⟨untouched, led⟩ := allowed
          exact later
            ⟨untouched.trans fresh.stored, led, fresh.unanswered⟩

end Fair

/-! ## One refresher -/

/-- In a fair race for an entry that is due, in which every reader comes to both
of its parts, all readers learn what is stored; one of them is elected, and the
others are not.  The entry is put off once, and one more election of it is
counted, as far as 32 bits can count. -/
theorem exactly_one_refreshes
    (inhabited : 0 < count) (window : RefreshWindow)
    (names : Fin count → String) {shard : Shard Value} {key : String}
    {entry : Entry Value} {due : Instant}
    (stored : shard.entries[key]? = some entry)
    (led : ∀ reader, shard.primary (names reader) = key)
    (refresh : entry.refreshAt = some due)
    {parts : List (Part Value count)} (complete : Complete parts)
    (fair : Fair window names key entry due (start shard) parts) :
    ∃ winner elected, .elect winner elected ∈ parts ∧
      (∀ reader,
        ((start shard).follow (some window) names parts).readers reader =
          .answered (entry.lookup (decide (reader = winner)))) ∧
        ((start shard).follow (some window) names
            parts).shard.entries[key]? =
          some (entry.postponed window.retryBase elected) ∧
          (entry.postponed window.retryBase elected).retries =
            min (entry.retries + 1) Entry.mostRetries := by
  have answers := answered_of_complete (some window) names complete
    (start shard)
  have fresh : Open names key entry (start shard) :=
    ⟨stored, led, fun _ _ => nofun⟩
  cases fresh.follow refresh fair with
  | inl still =>
      -- In a race that is still open nobody has answered, but all have.
      obtain ⟨lookup, answered⟩ := answers ⟨0, inhabited⟩
      exact absurd answered (still.unanswered _ lookup)
  | inr decided =>
      obtain ⟨winner, elected, member, won⟩ := decided
      refine ⟨winner, elected, member, ?_, won.stored, rfl⟩
      intro reader
      by_cases itself : reader = winner
      · rw [itself, won.told, decide_eq_true rfl]
      · obtain ⟨lookup, answered⟩ := answers reader
        rw [answered, won.others reader lookup itself answered,
          decide_eq_false itself]

/-- A shard with an entry that becomes due at the instant 10. -/
def ripe : Shard Nat :=
  (Shard.empty 4 []).upsert (.fresh "a" (some 1) 1000 (some 10)) ["x"]

/-- Two reads by the key and one by an alias.  The second reader is elected
after another key has been written. -/
def contest : List (Part Nat 3) :=
  [.glance 0 20, .glance 1 21,
    .elsewhere (ripe.upsert (.fresh "b" (some 2) 1000 none) []),
    .elect 1 22, .glance 2 23, .elect 2 23, .elect 0 24]

theorem exactly_one_refreshes_contest :
    let names : Fin 3 → String := fun reader =>
      if reader = 1 then "x" else "a"
    let window : RefreshWindow := ⟨10, 20, 100⟩
    let race := (start ripe).follow (some window) names contest
    (∀ reader, ripe.primary (names reader) = "a") ∧
      Complete contest ∧
        Fair window names "a" (.fresh "a" (some 1) 1000 (some 10)) 10
            (start ripe) contest ∧
          (∃ winner, ∀ reader,
            race.readers reader =
              .answered (.found 1 (decide (reader = winner)))) ∧
            (race.shard.entries["a"]?).map (·.retries) = some 1 := by
  intro names window race
  have led : ∀ reader, ripe.primary (names reader) = "a" := by decide
  have complete : Complete contest := by
    intro reader
    match reader with
    | 0 => exact ⟨[], 20, [_, _, _, _, _], 24, [], rfl⟩
    | 1 => exact ⟨[_], 21, [_], 22, [_, _, _], rfl⟩
    | 2 => exact ⟨[_, _, _, _], 23, [], 23, [_], rfl⟩
  have fair : Fair window names "a" (.fresh "a" (some 1) 1000 (some 10)) 10
      (start ripe) contest := by
    decide +kernel
  obtain ⟨winner, _, _, answers, stored, counted⟩ :=
    exactly_one_refreshes (by decide) window names rfl led rfl complete fair
  refine ⟨led, complete, fair, ⟨winner, answers⟩, ?_⟩
  rw [stored, Option.map_some, counted]
  rfl

/-- An entry of which 32 bits can count no further election. -/
def uncountable : Entry Nat :=
  { Entry.fresh "a" (some 1) 1000 (some 10) with
    retries := Entry.mostRetries }

/-- Two races in which nothing touches the entry and all readings lie in its
window.  The elections of an entry that cannot count them are not counted.  And
an alias leads to the entry only until another one is written under it: the
second reader learns that one. -/
theorem uncounted_and_misled :
    let window : RefreshWindow := ⟨10, 20, 100⟩
    let shard := (Shard.empty 4 []).upsert uncountable []
    let race := (start shard).follow (some window) (fun _ : Fin 1 => "a")
      [.glance 0 20, .elect 0 20]
    let led := (start ripe).follow (some window) (fun _ : Fin 2 => "x")
      [.glance 0 20, .elect 0 20]
    let hidden := led.shard.upsert (.fresh "x" (some 2) 1000 none) []
    let misled := led.follow (some window) (fun _ => "x")
      [.elsewhere hidden, .glance 1 20, .elect 1 20]
    (Fair window (fun _ : Fin 1 => "a") "a" uncountable 10 (start shard)
        [.glance 0 20, .elect 0 20] ∧
      race.readers 0 = .answered (.found 1 true) ∧
        (race.shard.entries["a"]?).map (·.retries) ≠
          some (uncountable.retries + 1)) ∧
      (ripe.primary "x" = "a" ∧
        hidden.entries["a"]? = led.shard.entries["a"]? ∧
          led.readers 0 = .answered (.found 1 true) ∧
            misled.readers 1 = .answered (.found 2 false)) := by
  decide +kernel

end Race

end ReadThrough
