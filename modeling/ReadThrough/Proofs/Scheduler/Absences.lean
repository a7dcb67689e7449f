import ReadThrough.Proofs.Cache.Absence
import ReadThrough.Proofs.Cache.Blame
import ReadThrough.Proofs.Scheduler.Incidents

/-!
# Records that are gone

A refresh can learn that a record is gone, for one name or for a request of a
batch.  `record_gone` says what is read afterwards, now and later.  An entry that
is forgotten is gone under all its names.  An entry is not forgotten when missing
records are stored and the refresh was made for one of its aliases: the missing
record is stored beside it.
-/

namespace ReadThrough

open Std (ExtTreeMap)

variable {Value : Type}

/-- An errand ends a refresh that has learned that there is no record of a
name. -/
inductive Errand.Lacks (name : String) : Errand Value → Prop
  | single {call : SingleCall Value} {source : String}
      (called : call.name = name)
      (ending : call.plan.ending = .fails (.notFound source)) :
      Lacks name (.refresh call)
  | batch {requests : List Request} {storing : Storing}
      {plan : Plan (ExtTreeMap String Value)} {request : Request}
      {response : ExtTreeMap String Value}
      (asked : request ∈ requests) (called : request.name = name)
      (ending : plan.ending = .returns response)
      (leftOut : response[request.label]? = none) :
      Lacks name (.refreshMany requests storing plan)

namespace Cache

variable {settings : Settings} {name : String}

theorem absenceChores_eq (settings : Settings) (name : String) :
    (absenceChores settings name : List (Chore Value)) =
      [fun _ => .absence settings name] := by
  rw [absenceChores, Act.absence]
  split
  · rfl
  · rfl

variable [Keyed Value]

/-- A request that a response to refreshes leaves out takes its turn. -/
theorem exists_chores_of_leftOut
    {storing : Storing} {requests : List Request} {request : Request}
    {response : ExtTreeMap String Value} (asked : request ∈ requests)
    (leftOut : response[request.label]? = none) :
    ∃ early late : List (Chore Value),
      responseChores settings storing true requests response =
        early ++ (fun _ => Act.absence settings request.name) :: late := by
  induction requests generalizing response with
  | nil => cases asked
  | cons head requests inductionHypothesis =>
      rw [responseChores]
      rcases List.mem_cons.mp asked with rfl | later
      · rw [leftOut]
        dsimp only
        rw [if_pos rfl, absenceChores_eq]
        exact ⟨[], _, rfl⟩
      · cases response[head.label]? with
        | some value =>
            have stillOut :
                (response.erase head.label)[request.label]? = none := by
              rw [ExtTreeMap.getElem?_erase, leftOut, ite_self]
            obtain ⟨early, late, shape⟩ := inductionHypothesis later stillOut
            dsimp only
            rw [shape, ← List.append_assoc]
            exact ⟨_, _, rfl⟩
        | none =>
            obtain ⟨early, late, shape⟩ := inductionHypothesis later leftOut
            dsimp only
            rw [shape, ← List.append_assoc]
            exact ⟨_, _, rfl⟩

end Cache

namespace Errand

variable [Keyed Value] {settings : Settings} {cache : Cache Value}
  {errand : Errand Value} {name : String}

omit [Keyed Value] in
theorem Lacks.unbroken (lacks : errand.Lacks name) :
    errand.operation.Unbroken := by
  cases lacks with
  | single called ending =>
      intro text breaks
      cases ending.symm.trans breaks
  | batch asked called ending leftOut =>
      intro text breaks
      cases ending.symm.trans breaks

/-- Taking note of the absence is one of the chores. -/
theorem Lacks.exists_chores (lacks : errand.Lacks name) :
    ∃ early late : List (Chore Value),
      errand.operation.chores settings cache =
        early ++ (fun _ => Act.absence settings name) :: late := by
  cases lacks with
  | single called ending =>
      rw [operation, Operation.chores, Cache.playChores, ending]
      dsimp only
      rw [Cache.outcomeChores, if_pos rfl, Cache.absenceChores_eq, called]
      exact ⟨[_], [], rfl⟩
  | batch asked called ending leftOut =>
      obtain ⟨early, late, shape⟩ :=
        Cache.exists_chores_of_leftOut asked leftOut
      rw [operation, Operation.chores, Cache.playChores, ending]
      dsimp only
      rw [shape, called]
      exact ⟨_ :: early, late, rfl⟩

/-- A refresh that ends without a fault takes note of the absence. -/
theorem Lacks.exists_acts
    (lacks : errand.Lacks name) (coherent : cache.Coherent)
    {reply : Except Failure (Reply Value)}
    (returned : errand.verdict settings cache = .returned reply) :
    ∃ early late,
      errand.operation.acts settings cache =
          early ++ .absence settings name :: late ∧
        Cache.returns ((Act.absence settings name).action settings)
          (Cache.follow settings cache early) := by
  have done : Cache.completes settings
      (errand.operation.chores settings cache) cache = true := by
    rw [← Cache.returns_operation coherent lacks.unbroken]
    rcases errand.verdict_cases settings cache with
      ⟨_, _, answered⟩ | ⟨fault, broken, _⟩
    · rw [Cache.returns, answered]
      rfl
    · cases returned.symm.trans broken
  obtain ⟨early, late, shape⟩ :=
    Lacks.exists_chores lacks
  rw [Operation.acts, shape]
  rw [shape] at done
  exact Cache.exists_acts_of_completes done

end Errand

namespace Logbook

variable [Keyed Value]

/-- Whatever has happened to a new cache: when a refresh ends without a fault
that has learned that there is no record of a name, it takes note of that, as
one of its acts.  From then on no value is found under the names of an entry
that this forgets, until somebody writes under them again.  A key that is an
alias of another entry as well is left out; it leads there.  All other entries
are still found under their names.

Of the entry that the name leads to: it is forgotten unless a missing record has
been stored beside it.  Where missing records are stored, that is what the name
reads, if the write was not dropped. -/
theorem record_gone
    {settings : Settings} (valid : settings.Valid)
    (paddings : Nat → List Nat) (incidents : List (Incident Value))
    {errand : Errand Value} {name : String} (lacks : errand.Lacks name)
    {reply : Except Failure (Reply Value)}
    (returned : errand.verdict settings
      (undergoAll settings (start settings paddings)
        incidents).scheduler.cache = .returned reply) :
    let before := (undergoAll settings (start settings paddings)
      incidents).scheduler.cache
    ∃ early late,
      errand.operation.acts settings before =
          early ++ .absence settings name :: late ∧
        let present := Cache.follow settings before early
        let gone := Cache.after settings present (.absence settings name)
        errand.leaves settings before = Cache.follow settings gone late ∧
          (∀ index key other,
            present.Forgets settings name (index, key) →
              present.place other = (index, key) →
                (other = key → present.bound? index key = none) →
                  ∀ acts : List (Act Value),
                    (∀ act ∈ acts, ¬ act.Writes other) →
                      let later := Cache.follow settings gone acts
                      ∀ instant, later.deciding other = .ok instant →
                        Cache.Ends (Cache.lookup settings other) later
                          (fun found _ => ∀ value,
                            found.content ≠ some (some value))
                          (fun _ _ => False)) ∧
          (∀ place other,
            ¬ present.Forgets settings name place →
              present.place other = place →
                (settings.storesMissing → other = name →
                  present.Drops settings name) →
                  ∀ instant, gone.deciding other = .ok instant →
                    Cache.Reads settings gone other
                      (present.shown place instant)) ∧
          (present.Stores (present.place name).1 (present.place name).2 →
            (present.Forgets settings name (present.place name) ↔
              settings.storesMissing = false ∨
                (present.place name).2 = name ∨
                  ¬ present.Drops settings name ∧
                    present.Evicts settings name (present.place name))) ∧
          (settings.storesMissing → ¬ present.Drops settings name →
            ∃ now, present.clock.read = (.ok now, gone.clock) ∧
              (gone.deciding name = .ok now →
                Cache.Reads settings gone name (some none))) := by
  intro before
  have new : (Cache.empty settings paddings : Cache Value).Coherent :=
    Cache.coherent_empty valid paddings
  have coherent : before.Coherent :=
    coherent_undergoAll new settings incidents
  obtain ⟨early, late, shape, noted⟩ := lacks.exists_acts coherent returned
  refine ⟨early, late, shape, ?_⟩
  intro present gone
  have presently : present.Coherent := coherent.follow settings early
  have afterwards : gone.Coherent := presently.after settings _
  have absented : Cache.Absented settings name present gone :=
    Cache.final_of_returns noted (Cache.ends_absence presently name)
  refine ⟨?leaves, ?forgotten, ?kept, ?own, ?missing⟩
  case leaves =>
    rw [Errand.leaves, Cache.final_operation coherent, shape,
      Cache.follow_append]
    rfl
  case forgotten =>
    intro index key other forgets leads itself acts silent later instant
      decided
    have valueless := absented.forgotten forgets leads itself
    exact (valueless.follow afterwards silent).ends_lookup
      (afterwards.follow settings acts) decided
  case kept =>
    intro place other spared leads unwritten instant decided
    obtain ⟨stays, shows⟩ := absented.kept spared leads unwritten
    have reads := Cache.reads_place settings afterwards decided
    rwa [stays, shows] at reads
  case own => exact Cache.forgets_place_iff presently
  case missing =>
    intro stores room
    obtain ⟨now, reading, place, shown⟩ := absented.missing stores room
    refine ⟨now, reading, fun decided => ?_⟩
    have reads := Cache.reads_place settings afterwards decided
    rwa [place, shown] at reads

/-- Two records, one of them with an alias. -/
def aliased : List (Incident NameTag) :=
  [.operation (.writeAll
    [⟨"d", some ⟨"d", ["x"]⟩, ["x"]⟩, ⟨"a", some ⟨"a", []⟩, []⟩])]

/-- The refresh of two requests whose response leaves out the one for the
alias. -/
def halfAnswered : Errand NameTag :=
  .refreshMany [⟨"first", "x"⟩, ⟨"second", "a"⟩] .byName
    ⟨0, 0, .returns ((∅ : ExtTreeMap String NameTag).insert "second"
      ⟨"a", []⟩)⟩

/-- Both names of a record that a batch has left out are gone when the refresh
is over. -/
theorem record_gone_halfAnswered :
    Settings.twoShards.Valid ∧
      (let before := (undergoAll Settings.twoShards
        (start Settings.twoShards fun _ => []) aliased).scheduler.cache
      let after := halfAnswered.leaves Settings.twoShards before
      before.place "x" = before.place "d" ∧
        Cache.result? (Cache.lookup Settings.twoShards "d") before =
            some (.found ⟨"d", ["x"]⟩ false) ∧
          ∀ name ∈ ["d", "x"],
            Cache.Ends (Cache.lookup Settings.twoShards name) after
              (fun found _ => ∀ value, found.content ≠ some (some value))
              (fun _ _ => False)) := by
  have valid : Settings.twoShards.Valid := by decide
  have lacks : halfAnswered.Lacks "x" :=
    .batch List.mem_cons_self rfl rfl (by decide +kernel)
  refine ⟨valid, ?_⟩
  intro before after
  refine ⟨by decide +kernel, by decide +kernel, ?_⟩
  obtain ⟨reply, returned⟩ : ∃ reply,
      halfAnswered.verdict Settings.twoShards before = .returned reply :=
    Errand.returned_of_returns (by decide +kernel)
  have acts : halfAnswered.operation.acts Settings.twoShards before =
      [.quiet (.advance 0), .delete "x", .quiet (.route "a"),
        .write ⟨"a", some ⟨"a", []⟩, []⟩] := by
    decide +kernel
  have forgets : (Cache.follow Settings.twoShards before
      [.quiet (.advance 0)]).Forgets Settings.twoShards "x" (0, "d") := by
    decide +kernel
  have names : ∀ name ∈ ["d", "x"],
      (Cache.follow Settings.twoShards before
        [.quiet (.advance 0)]).place name = (0, "d") ∧
      (Cache.follow Settings.twoShards before
        [.quiet (.advance 0)]).bound? 0 "d" = none ∧
        after.deciding name = .ok 0 := by
    decide +kernel
  dsimp only [before, after] at returned acts forgets names ⊢
  generalize aliased = incidents at returned acts forgets names ⊢
  obtain ⟨early, late, shape, leaves, forgotten, _⟩ :=
    record_gone valid (fun _ => []) incidents lacks returned
  have noted : Act.absence Settings.twoShards "x" =
      (.delete "x" : Act NameTag) := rfl
  rw [acts, noted] at shape
  -- The deletion is the second act, and nobody writes either name after it.
  obtain ⟨rfl, rfl⟩ : early = [.quiet (.advance 0)] ∧
      late = [.quiet (.route "a"), .write ⟨"a", some ⟨"a", []⟩, []⟩] := by
    rcases early with _ | ⟨first, _ | ⟨second, early⟩⟩
    · cases shape
    · cases shape
      exact ⟨rfl, rfl⟩
    · have rest := List.tail_eq_of_cons_eq (List.tail_eq_of_cons_eq shape)
      have member : (.delete "x" : Act NameTag) ∈
          [.quiet (.route "a"), .write ⟨"a", some ⟨"a", []⟩, []⟩] := by
        rw [rest]
        exact List.mem_append_right _ List.mem_cons_self
      exact absurd member (by decide)
  have silent : ∀ name ∈ ["d", "x"],
      ∀ act ∈ ([.quiet (.route "a"), .write ⟨"a", some ⟨"a", []⟩, []⟩] :
        List (Act NameTag)), ¬ act.Writes name := by
    decide
  intro name member
  obtain ⟨leads, unbound, decided⟩ := names name member
  rw [leaves] at decided ⊢
  revert decided
  exact forgotten 0 "d" name forgets leads (fun _ => unbound) _
    (silent name member) 0

/-- Missing records are stored, and what has been stored for a while is
refreshed. -/
def forgetful : Settings :=
  { Settings.twoShards with
    storesMissing := true
    refresh := some { earliest := 0, latest := 0, retryBase := 5 } }

/-- A call of an alias reads the value and elects a refresh, which learns that
the record is gone.  The alias then reads a missing record, but the key still
reads the value. -/
theorem record_stays_under_its_key :
    forgetful.Valid ∧
      (let call : SingleCall NameTag :=
        ⟨"x", .byName, ⟨0, 0, .fails (.notFound "source")⟩⟩
      let read := aliased ++ [.operation (.act (.quiet (.advance 1))),
        .move (.call call), .move (.turn 0)]
      let before := (undergoAll forgetful (start forgetful fun _ => [])
        read).scheduler
      let after := (undergoAll forgetful (start forgetful fun _ => [])
        (read ++ [.move (.turn 1)])).scheduler
      (before.verdict? 0).bind Verdict.value? = some ⟨"d", ["x"]⟩ ∧
        before.cache.place "x" = before.cache.place "d" ∧
          before.cache.clock = after.cache.clock ∧
            Cache.result? (Cache.lookup forgetful "x") after.cache =
                some (.missing false) ∧
              Cache.result? (Cache.lookup forgetful "d") after.cache =
                some (.found ⟨"d", ["x"]⟩ false)) := by
  decide +kernel

end Logbook

end ReadThrough
