import ReadThrough.Proofs.Cache.Local
import ReadThrough.Proofs.Shard.Reading

/-!
# Batches of one request

A batch that requests one record does to a cache what a call of its name does.
The two come from different code: the call looks its name up again before it
fetches, and the batch stores its response request by request.  What they store
is `storeFound`, and the second look changes nothing but the journal as long as
the clock stands still.
-/

namespace ReadThrough

open Std (ExtTreeMap)

namespace Shard

variable {Value : Type} {shard : Shard Value}

/-- A glance that answers sees what a read that elects nobody sees. -/
theorem peek_of_glance
    {name : String} {now : Instant} {lookup : Lookup Value}
    (answered : shard.glance name now = some lookup) :
    shard.peek name now = lookup := by
  rw [glance] at answered
  rw [peek]
  cases resolved : shard.resolve name with
  | none =>
      simp only [resolved] at answered
      exact Option.some.inj answered
  | some entry =>
      simp only [resolved] at answered
      by_cases expired : entry.isExpired now = true
      · rw [if_pos expired] at answered
        simp only [if_pos expired]
        exact Option.some.inj answered
      · rw [if_neg expired] at answered
        simp only [if_neg expired]
        split at answered
        · cases answered
        · exact Option.some.inj answered

/-- A glance leaves a read to its second part only if there is a live entry. -/
theorem isLive_elect_of_glance
    {name : String} {now : Instant}
    (unanswered : shard.glance name now = none)
    (refresh : Option RefreshWindow) :
    (shard.elect refresh name now).1.isLive = true := by
  have live : ∀ (entry : Entry Value) (elected : Bool),
      (entry.lookup elected).isLive = true := by
    intro entry elected
    rw [Entry.lookup]
    cases entry.value with
    | none => rfl
    | some value => rfl
  rw [glance] at unanswered
  rw [elect]
  cases resolved : shard.resolve name with
  | none =>
      simp only [resolved] at unanswered
      cases unanswered
  | some entry =>
      simp only [resolved] at unanswered
      by_cases expired : entry.isExpired now = true
      · rw [if_pos expired] at unanswered
        cases unanswered
      · simp only [if_neg expired]
        split
        · split
          · exact live entry false
          · exact live entry true
        · exact live entry false

end Shard

/-- A fetch for a batch ends as a fetch for one record does: both find the value
of the record, or both find that there is none. -/
inductive Plan.Answers {Value : Type} (label : String) :
    Plan Value → Plan (ExtTreeMap String Value) → Option Value → Prop
  | found (delay pause : Nat) (advance : Duration) (value : Value) :
      Answers label ⟨delay, advance, .returns value⟩
        ⟨pause, advance, .returns ((∅ : ExtTreeMap String Value).insert
          label value)⟩ (some value)
  | nothing (delay pause : Nat) (advance : Duration) (source : String) :
      Answers label ⟨delay, advance, .fails (.notFound source)⟩
        ⟨pause, advance, .returns ∅⟩ none

namespace Cache

variable {Value Result : Type}

/-! ## Looking up -/

section Looking

variable (settings : Settings)

/-- Looking one request up is a lookup of its name. -/
theorem gather_singleton (request : Request) :
    gather settings [request]
        { found := ∅, refreshes := [], misses := [] } =
      (fun lookup : Lookup Value =>
        { found :=
            match lookup.value? with
            | some value =>
                (∅ : ExtTreeMap String Value).insert request.label value
            | none => ∅
          refreshes := if lookup.refreshes then [request] else []
          misses := if lookup.isLive then [] else [request] }) <$>
        lookup settings request.name := by
  rw [map_eq_pure_bind]
  rfl

variable {settings} {cache : Cache Value} {name : String}

/-- Where the clock stands still, a read that finds nothing has glanced at the
shard and changed nothing. -/
theorem ends_readClock_of_ok
    {now : Instant} {clock : Clock}
    (reading : cache.clock.read = (.ok now, clock))
    {returns : Instant → Cache Value → Prop}
    {breaks : Fault → Cache Value → Prop} :
    Ends readClock cache returns breaks ↔
      returns now (cache.withClock clock) := by
  rw [ends_readClock, reading]

variable (settings name) in
theorem ends_getFrom_of_still
    (still : cache.clock.read.2 = cache.clock) (index : Nat) :
    Ends (getFrom settings index name) cache
      (fun found next => found = .absent →
        next = cache ∧ ∃ shard now, cache.shards[index]? = some shard ∧
          cache.clock.read.1 = .ok now ∧
            shard.glance name now = some .absent)
      (fun _ _ => True) := by
  have reading : cache.clock.read = (cache.clock.read.1, cache.clock) :=
    Prod.ext rfl still
  rw [getFrom, ends_bind, ends_shardAt]
  cases seat : cache.shards[index]? with
  | none => trivial
  | some shard =>
      dsimp only
      rw [ends_bind, ends_readClock, reading]
      cases shown : cache.clock.read.1 with
      | error fault => trivial
      | ok now =>
          dsimp only
          cases glanced : shard.glance name now with
          | some found =>
              rintro rfl
              exact ⟨rfl, shard, now, rfl, rfl, glanced⟩
          | none =>
              -- The entry is live and due at the second reading as well.
              refine ends_bind.mpr ((ends_readClock_of_ok
                (reading.trans (congrArg (·, cache.clock) shown))).mpr ?_)
              have live :=
                shard.isLive_elect_of_glance glanced settings.refresh
              intro nothing
              rw [nothing] at live
              cases live

theorem ends_peek_of_glance
    {shard : Shard Value} {now : Instant}
    (seat : cache.shards[cache.route name]? = some shard)
    (still : cache.clock.read.2 = cache.clock)
    (shown : cache.clock.read.1 = .ok now)
    (glanced : shard.glance name now = some .absent) :
    Ends (peek name) cache
      (fun found next => found = .absent ∧ Likewise cache next)
      (fun _ _ => False) := by
  -- To note that the name was routed does not concern the clock.
  have reading : (cache.noted (.routed (cache.route name))).clock.read =
      (.ok now, cache.clock) := Prod.ext shown still
  rw [peek, ends_bind, ends_shardIndex_of_seat seat, ends_bind,
    ends_shardAt, shards_noted, seat]
  dsimp only
  rw [ends_ite]
  split
  · refine ends_bind.mpr ((ends_readClock_of_ok reading).mpr ?_)
    exact ⟨Shard.peek_of_glance glanced, rfl, rfl, rfl, rfl⟩
  · exact ⟨rfl, rfl, rfl, rfl, rfl⟩

/-- Where a lookup has found nothing, a second look finds nothing either and
changes nothing but the journal, as long as the clock stands still. -/
theorem peek_of_absent
    (still : cache.clock.read.2 = cache.clock)
    (absent : answer (lookup settings name) cache = .ok .absent) :
    answer (peek name) (final (lookup settings name) cache) = .ok .absent ∧
      Likewise (final (lookup settings name) cache)
        (final (peek name) (final (lookup settings name) cache)) := by
  have looks : Ends (lookup settings name) cache
      (fun found next => found = .absent → Ends (peek name) next
        (fun again after => again = .absent ∧ Likewise next after)
        (fun _ _ => False))
      (fun _ _ => True) := by
    rw [lookup, ends_bind]
    refine ends_shardIndex (fun _ => ?_) trivial
    have stillNoted : (cache.noted (.routed (cache.route name))).clock.read.2 =
        (cache.noted (.routed (cache.route name))).clock := still
    have read := ends_getFrom_of_still settings name stillNoted
      (cache.route name)
    rw [ends_bind]
    refine read.weaken (fun found next left => ?_) fun _ _ => id
    rw [ends_bind]
    cases found with
    | absent =>
        obtain ⟨rfl, shard, now, seat, shown, glanced⟩ := left rfl
        simp only [recordLookup, Lookup.refreshes, ends_bind, ends_record,
          Bool.false_eq_true, if_false, ends_pure]
        intro _
        exact ends_peek_of_glance seat still shown glanced
    | found value refresh =>
        rw [ends_iff_answer]
        split
        · exact fun absurdity => by cases absurdity
        · trivial
    | missing refresh =>
        rw [ends_iff_answer]
        split
        · exact fun absurdity => by cases absurdity
        · trivial
  rw [ends_iff_answer, absent] at looks
  have peeks := looks rfl
  rw [ends_iff_answer] at peeks
  cases answered : answer (peek name)
      (final (lookup settings name) cache) with
  | ok found =>
      rw [answered] at peeks
      exact ⟨congrArg Except.ok peeks.1, peeks.2⟩
  | error fault =>
      rw [answered] at peeks
      exact peeks.elim

end Looking

/-! ## Storing -/

/-- The values of a response go over those that were found before. -/
theorem getElem?_insertMany_toList
    (found values : ExtTreeMap String Value) (label : String) :
    (found.insertMany values.toList)[label]? =
      values[label]?.or found[label]? := by
  cases there : values[label]? with
  | some value =>
      exact ExtTreeMap.getElem?_insertMany_list_of_mem
        (Std.compare_eq_iff_eq.mpr rfl) ExtTreeMap.distinct_keys_toList
        (ExtTreeMap.mem_toList_iff_getElem?_eq_some.mpr there)
  | none =>
      rw [Option.none_or]
      apply ExtTreeMap.getElem?_insertMany_list_of_contains_eq_false
      rw [ExtTreeMap.map_fst_toList_eq_keys]
      simpa using there

theorem discard_bind_pure (action : Action Value Unit) (result : Result) :
    (discard (action >>= fun _ => pure result) : Action Value PUnit) =
      action := by
  funext cache
  change EStateM.map _ (action >>= fun _ => pure result) cache =
    action cache
  simp only [EStateM.map, bind, EStateM.bind]
  cases action cache with
  | ok nothing next => rfl
  | error fault next => rfl

section Storing

variable [Keyed Value] (settings : Settings) (storing : Storing)
  (name : String)

/-- Store what a fetch has found for a caller that waits. -/
def storeFound (value? : Option Value) : Action Value Unit :=
  match value? with
  | some value => storeFetched settings storing name value
  | none =>
      if settings.storesMissing then
        discard (insertMissing settings name)
      else
        pure ()

/-- Store what a refresh has found. -/
def storeRenewed (value? : Option Value) : Action Value Unit :=
  match value? with
  | some value => storeFetched settings storing name value
  | none => storeAbsence settings name

theorem congruent_storeFound (value? : Option Value) :
    Congruent (storeFound settings storing name value?) := by
  refine congruent_of_local fun cache => ?_
  cases value? with
  | some value => exact local_storeFetched settings storing name value
  | none =>
      exact (local_discard (local_write settings name none [])).ite
        (local_pure ())

theorem congruent_storeRenewed (value? : Option Value) :
    Congruent (storeRenewed settings storing name value?) := by
  refine congruent_of_local fun cache => ?_
  cases value? with
  | some value => exact local_storeFetched settings storing name value
  | none => exact local_storeAbsence settings name

variable {settings storing name} {label : String} {single : Plan Value}
  {batch : Plan (ExtTreeMap String Value)} {value? : Option Value}

/-- The end of a fetch for one name, and what it answers. -/
theorem concludeFlight_of_answers
    (answers : Plan.Answers label single batch value?) :
    ∃ outcome : Except Failure Value,
      outcome.toOption = value? ∧
        concludeFlight settings storing name single =
          (fun _ => outcome) <$> (do
            advanceClock single.advance
            storeFound settings storing name value?) := by
  cases answers with
  | found delay pause advance value =>
      refine ⟨.ok value, rfl, ?_⟩
      simp only [concludeFlight, Plan.play, storeOutcome, storeFound,
        map_eq_pure_bind, bind_assoc, pure_bind]
  | nothing delay pause advance source =>
      by_cases stores : settings.storesMissing = true
      · refine ⟨.error (.missingRecord name), rfl, ?_⟩
        simp only [concludeFlight, Plan.play, storeOutcome, storeFound,
          if_pos stores, map_eq_pure_bind, bind_assoc, pure_bind]
      · refine ⟨.error (.notFound source), rfl, ?_⟩
        simp only [concludeFlight, Plan.play, storeOutcome, storeFound,
          if_neg stores, map_eq_pure_bind, bind_assoc, pure_bind]

/-- The end of a fetch for the miss of a batch, and what it answers. -/
theorem concludeMisses_of_answers
    (answers : Plan.Answers label single batch value?) :
    ∃ values : ExtTreeMap String Value,
      values[label]? = value? ∧
        concludeMisses settings storing ∅ [⟨label, name⟩] batch =
          (fun _ => .ok values) <$> (do
            advanceClock single.advance
            storeFound settings storing name value?) := by
  cases answers with
  | found delay pause advance value =>
      refine ⟨(∅ : ExtTreeMap String Value).insertMany
        ((∅ : ExtTreeMap String Value).insert label value).toList, ?_, ?_⟩
      · rw [getElem?_insertMany_toList, ExtTreeMap.getElem?_insert_self]
        rfl
      · simp only [concludeMisses, Plan.play, storeResponse, storeFound,
          ExtTreeMap.getElem?_insert_self, map_eq_pure_bind, bind_assoc,
          pure_bind]
  | nothing delay pause advance source =>
      refine ⟨(∅ : ExtTreeMap String Value).insertMany
        (∅ : ExtTreeMap String Value).toList, by simp, ?_⟩
      by_cases stores : settings.storesMissing = true
      · simp only [concludeMisses, Plan.play, storeResponse, storeFound,
          ExtTreeMap.getElem?_empty, Bool.false_eq_true, if_false,
          if_pos stores, map_eq_pure_bind, bind_assoc, pure_bind]
      · simp only [concludeMisses, Plan.play, storeResponse, storeFound,
          ExtTreeMap.getElem?_empty, Bool.false_eq_true, if_false,
          if_neg stores, map_eq_pure_bind, bind_assoc, pure_bind]

/-- The ends of two refreshes that find the same are the same. -/
theorem concludeRefresh_of_answers
    (answers : Plan.Answers label single batch value?) :
    concludeRefresh settings storing name single = (do
        advanceClock single.advance
        storeRenewed settings storing name value?) ∧
      concludeRefreshes settings storing [⟨label, name⟩] batch = (do
        advanceClock single.advance
        storeRenewed settings storing name value?) := by
  cases answers with
  | found delay pause advance value =>
      constructor
      · simp only [concludeRefresh, Plan.play, storeRefreshed,
          storeRenewed, bind_assoc, pure_bind]
      · simp only [concludeRefreshes, Plan.play, storeResponse,
          storeRenewed, ExtTreeMap.getElem?_insert_self, bind_assoc,
          pure_bind, discard_bind_pure]
  | nothing delay pause advance source =>
      constructor
      · simp only [concludeRefresh, Plan.play, storeRefreshed,
          storeRenewed, bind_assoc, pure_bind]
      · simp only [concludeRefreshes, Plan.play, storeResponse,
          storeRenewed, ExtTreeMap.getElem?_empty, if_true, bind_assoc,
          pure_bind, discard_bind_pure]

variable (settings storing name) in
/-- Where a call of one name has missed it, the ends of both fetches leave the
same behind, and both answer the value that they found. -/
theorem likewise_concludeMisses
    (answers : Plan.Answers label single batch value?)
    {left right : Cache Value} (likewise : Likewise left right) :
    Likewise (final (concludeFlight settings storing name single) left)
        (final (concludeMisses settings storing ∅ [⟨label, name⟩] batch)
          right) ∧
      ((∃ fault,
          answer (concludeFlight settings storing name single) left =
              .error fault ∧
            answer (concludeMisses settings storing ∅ [⟨label, name⟩] batch)
              right = .error fault) ∨
        ∃ outcome values,
          answer (concludeFlight settings storing name single) left =
              .ok outcome ∧
            answer (concludeMisses settings storing ∅ [⟨label, name⟩] batch)
                right = .ok (.ok values) ∧
              values[label]? = outcome.toOption) := by
  obtain ⟨outcome, found, flightSame⟩ :=
    concludeFlight_of_answers answers
  obtain ⟨values, collected, missesSame⟩ :=
    concludeMisses_of_answers answers
  have congruent : Congruent (do
      advanceClock single.advance
      storeFound settings storing name value?) :=
    (congruent_advanceClock single.advance).bind fun _ =>
      congruent_storeFound settings storing name value?
  obtain ⟨sameAnswer, same⟩ := congruent left right likewise
  rw [flightSame, missesSame, final_map, final_map, answer_map, answer_map,
    sameAnswer]
  refine ⟨same, ?_⟩
  cases answer (do
      advanceClock single.advance
      storeFound settings storing name value?) left with
  | error fault => exact Or.inl ⟨fault, rfl, rfl⟩
  | ok nothing =>
      exact Or.inr ⟨outcome, values, rfl, rfl, collected.trans found.symm⟩

theorem likewise_concludeRefreshes
    (answers : Plan.Answers label single batch value?)
    {left right : Cache Value} (likewise : Likewise left right) :
    Likewise (final (concludeRefresh settings storing name single) left)
      (final (concludeRefreshes settings storing [⟨label, name⟩] batch)
        right) := by
  obtain ⟨refreshSame, refreshesSame⟩ :=
    concludeRefresh_of_answers answers
  have congruent : Congruent (do
      advanceClock single.advance
      storeRenewed settings storing name value?) :=
    (congruent_advanceClock single.advance).bind fun _ =>
      congruent_storeRenewed settings storing name value?
  rw [refreshSame, refreshesSame]
  exact (congruent left right likewise).2

end Storing

end Cache

end ReadThrough
