import ReadThrough.Proofs.Cache.Blame
import ReadThrough.Proofs.Cache.Deposits
import ReadThrough.Proofs.Scheduler.Incidents

/-!
# Reading back a response

The response to the requests that a batch has missed is stored by name.
`response_read_back` says what the requested names read afterwards: what the last
deposit says that strikes them.  That is a value of the name, unless something
else of the same response gets in the way.  A label that is requested again
counts as left out of the response, and where missing records are stored, one is
stored over the value.
-/

namespace ReadThrough

open Std (ExtTreeMap)

variable {Value : Type}

/-- The values that a call of a batch has returned. -/
def Verdict.values? : Verdict Value → Option (ExtTreeMap String Value)
  | .returned (.ok (.many values)) => some values
  | _ => none

/-- A request of a name is answered with a value. -/
def Answers
    (requests : List Request) (response : ExtTreeMap String Value)
    (name : String) (value : Value) : Prop :=
  ∃ request ∈ requests, request.name = name ∧
    response[request.label]? = some value

namespace Cache

/-- What a response to requests leaves.  A value answers one request: a label
that is requested again counts as left out. -/
def deposits (settings : Settings) :
    List Request → ExtTreeMap String Value → List (Deposit Value)
  | [], _ => []
  | request :: requests, response =>
      match response[request.label]? with
      | some value =>
          ⟨request.name, some value⟩ ::
            deposits settings requests (response.erase request.label)
      | none =>
          if settings.storesMissing then
            ⟨request.name, none⟩ :: deposits settings requests response
          else deposits settings requests response

/-- Nothing that a response leaves gets in the way of a name.  No other name of
the requests leads to the same entry; where missing records are stored, all
requests of the name are answered, and none comes twice. -/
structure Undisturbed
    (settings : Settings) (cache : Cache Value) (requests : List Request)
    (response : ExtTreeMap String Value) (name : String) : Prop where
  alone : ∀ request ∈ requests,
    cache.place request.name = cache.place name → request.name = name
  answered : settings.storesMissing → ∀ request ∈ requests,
    request.name = name → request.label ∈ response
  once : settings.storesMissing →
    (requests.filter (·.name = name)).Nodup

section Deposits

variable {settings : Settings} {requests : List Request}
  {response : ExtTreeMap String Value} {deposit : Deposit Value}
  {name : String}

/-- To store a response is to make its deposits. -/
theorem responseChores_eq [Keyed Value] (settings : Settings)
    (requests : List Request) (response : ExtTreeMap String Value) :
    responseChores settings .byName false requests response =
      (deposits settings requests response).flatMap Deposit.chores := by
  induction requests generalizing response with
  | nil => rfl
  | cons request requests inductionHypothesis =>
      rw [responseChores, deposits]
      cases response[request.label]? with
      | some value =>
          dsimp only
          rw [inductionHypothesis, List.flatMap_cons]
          rfl
      | none =>
          dsimp only
          rw [if_neg Bool.false_ne_true, missingChores, inductionHypothesis]
          split
          · rfl
          · rfl

/-- A deposit is made for a request, and its value is what the request was
answered with. -/
theorem exists_request_of_mem_deposits
    (member : deposit ∈ deposits settings requests response) :
    ∃ request ∈ requests, request.name = deposit.name ∧
      ∀ value, deposit.value = some value →
        response[request.label]? = some value := by
  induction requests generalizing response with
  | nil => cases member
  | cons request requests inductionHypothesis =>
      have later : deposit ∈ deposits settings requests response →
          ∃ other ∈ request :: requests, other.name = deposit.name ∧
            ∀ value, deposit.value = some value →
              response[other.label]? = some value := by
        intro member
        obtain ⟨other, among, same⟩ := inductionHypothesis member
        exact ⟨other, List.mem_cons_of_mem _ among, same⟩
      rw [deposits] at member
      split at member
      next value answered =>
        rcases List.mem_cons.mp member with rfl | rest
        · refine ⟨request, List.mem_cons_self, rfl, ?_⟩
          rintro _ ⟨⟩
          exact answered
        · obtain ⟨other, among, same, answers⟩ := inductionHypothesis rest
          refine ⟨other, List.mem_cons_of_mem _ among, same, ?_⟩
          intro value given
          have kept := answers value given
          rw [ExtTreeMap.getElem?_erase] at kept
          split at kept
          · cases kept
          · exact kept
      next =>
        split at member
        · rcases List.mem_cons.mp member with rfl | rest
          · exact ⟨request, List.mem_cons_self, rfl, nofun⟩
          · exact later rest
        · exact later member

section Keyed

variable {keyOf : String → String}
  (keyed : ∀ request ∈ requests, request.name = keyOf request.label)

include keyed

/-- Where requests with one label have one name, every value is deposited under
the name that it was requested for. -/
theorem mem_deposits_of_answers
    {value : Value} (answers : Answers requests response name value) :
    ⟨name, some value⟩ ∈ deposits settings requests response := by
  induction requests generalizing response with
  | nil =>
      obtain ⟨_, impossible, _⟩ := answers
      cases impossible
  | cons request requests inductionHypothesis =>
      obtain ⟨first, others⟩ := List.forall_mem_cons.mp keyed
      obtain ⟨asked, member, called, answered⟩ := answers
      rw [deposits]
      by_cases same : asked.label = request.label
      · have name_eq : request.name = name := by
          rw [first, ← same, ← keyed asked member, called]
        rw [same] at answered
        rw [answered, name_eq]
        exact List.mem_cons_self
      · have rest : asked ∈ requests := by
          rcases List.mem_cons.mp member with rfl | rest
          · exact absurd rfl same
          · exact rest
        split
        · refine List.mem_cons_of_mem _ (inductionHypothesis others
            ⟨asked, rest, called, ?_⟩)
          rw [ExtTreeMap.getElem?_erase, if_neg]
          · exact answered
          · rw [Std.compare_eq_iff_eq]
            exact Ne.symm same
        · have later := inductionHypothesis others
            ⟨asked, rest, called, answered⟩
          split
          · exact List.mem_cons_of_mem _ later
          · exact later

/-- No missing record is left under a name whose requests are all answered, each
once. -/
theorem value_ne_none_of_mem_deposits
    (answered : settings.storesMissing → ∀ request ∈ requests,
      request.name = name → request.label ∈ response)
    (once : settings.storesMissing →
      (requests.filter (·.name = name)).Nodup)
    (member : deposit ∈ deposits settings requests response)
    (same : deposit.name = name) : deposit.value ≠ none := by
  induction requests generalizing response with
  | nil => cases member
  | cons request requests inductionHypothesis =>
      obtain ⟨first, others⟩ := List.forall_mem_cons.mp keyed
      have onceLater : settings.storesMissing →
          (requests.filter (·.name = name)).Nodup := fun stores =>
        (once stores).sublist ((List.sublist_cons_self _ _).filter _)
      have answeredLater : settings.storesMissing → ∀ other ∈ requests,
          other.name = name → other.label ∈ response := fun stores other
          among => answered stores other (List.mem_cons_of_mem _ among)
      rw [deposits] at member
      split at member
      next value found =>
        rcases List.mem_cons.mp member with rfl | rest
        · exact nofun
        · refine inductionHypothesis others ?_ onceLater rest
          intro stores other among called
          rw [ExtTreeMap.mem_erase]
          refine ⟨fun twice => ?_, answeredLater stores other among called⟩
          -- The request would have come twice.
          rw [Std.compare_eq_iff_eq] at twice
          have named : request.name = name := by
            rw [first, twice, ← others other among, called]
          have again : request = other := by
            cases request
            cases other
            cases twice
            cases named.trans called.symm
            rfl
          have distinct := once stores
          rw [List.filter_cons_of_pos (by simpa using named)] at distinct
          exact (List.nodup_cons.mp distinct).1 (List.mem_filter.mpr
            ⟨again ▸ among, by simpa using named⟩)
      next left =>
        split at member
        next stores =>
          rcases List.mem_cons.mp member with rfl | rest
          · have there := answered stores request List.mem_cons_self same
            rw [ExtTreeMap.getElem?_eq_some_getElem there] at left
            cases left
          · exact inductionHypothesis others answeredLater onceLater rest
        next =>
          exact inductionHypothesis others answeredLater onceLater member

end Keyed

end Deposits

section Response

variable {settings : Settings} {before : Cache Value} {now : Instant}

/-- The clock of the cache is moved. -/
theorem advance_act
    {clock : Clock} {duration : Duration}
    (moved : before.clock.advance duration = .ok clock) :
    returns ((Act.quiet (.advance duration)).action settings) before = true ∧
      Cache.after settings before (.quiet (.advance duration)) =
        before.withClock clock := by
  have ends : Ends ((Act.quiet (.advance duration)).action settings) before
      (fun _ next => next = before.withClock clock) (fun _ _ => False) := by
    change Ends (advanceClock duration) before _ _
    rw [ends_advanceClock, moved]
  have returned := returns_iff_ends.mpr
    (ends.weaken (fun _ _ _ => trivial) fun _ _ => id)
  exact ⟨returned, final_of_returns returned ends⟩

/-- A batch that has missed some requests and gets a response makes its
deposits. -/
theorem ends_response [Keyed Value]
    (coherent : before.Coherent)
    (expressible : ∀ window ∈ settings.refresh,
      window.earliest ≤ window.latest ∧ window.latest ≤ Duration.longest)
    {misses : List Request} {found : ExtTreeMap String Value}
    {plan : Plan (ExtTreeMap String Value)}
    {response : ExtTreeMap String Value}
    (ending : plan.ending = .returns response)
    {clock : Clock} (moved : before.clock.advance plan.advance = .ok clock)
    (steady : clock.Steady) (shows : clock.read.1 = .ok now)
    (homes : ∀ request ∈ misses, request.label ∈ response →
      before.AtHome request.name)
    (roomy : Each settings FindsRoom before
      ((Operation.concludeMisses .byName found misses plan).acts settings
        before)) :
    let operation := Operation.concludeMisses .byName found misses plan
    let deposits := deposits settings misses response
    let last := final (operation.action settings) before
    returns (operation.action settings) before = true ∧
      Deposit.AllMade settings now (before.withClock clock) deposits ∧
        last = deposits.foldl (Deposit.leaves settings)
            (before.withClock clock) ∧
          last.clock.Steady ∧ last.clock.read.1 = .ok now := by
  intro operation deposits last
  have unbroken : operation.Unbroken := by
    intro text breaks
    cases ending.symm.trans breaks
  obtain ⟨returned, left⟩ := advance_act moved
  have chores : operation.chores settings before =
      (fun _ => .quiet (.advance plan.advance)) ::
        deposits.flatMap Deposit.chores := by
    rw [← responseChores_eq]
    change Operation.chores settings before
      (.concludeMisses .byName found misses plan) = _
    rw [Operation.chores, playChores, ending]
  have moving : (before.withClock clock).Coherent := coherent.of_eq rfl rfl
  rw [Operation.acts, chores, carryOut, if_pos returned, Each, left] at roomy
  have depositHomes : ∀ deposit ∈ deposits, deposit.value ≠ none →
      before.AtHome deposit.name := by
    intro deposit member given
    obtain ⟨request, asked, same, answered⟩ :=
      exists_request_of_mem_deposits member
    obtain ⟨value, held⟩ := Option.ne_none_iff_exists'.mp given
    exact same ▸ homes request asked
      (ExtTreeMap.getElem?_eq_some_iff.mp (answered value held)).1
  obtain ⟨done, allMade, follows, stands⟩ := Deposit.allMade_of_roomy moving
    expressible steady shows depositHomes roomy.2
  have leaves : last = follow settings (before.withClock clock)
      (carryOut settings (deposits.flatMap Deposit.chores)
        (before.withClock clock)) := by
    rw [show last = _ from final_operation coherent operation,
      Operation.acts, chores, carryOut, if_pos returned, follow_cons, left]
  rw [leaves, returns_operation coherent unbroken, chores, completes,
    returned, left, done]
  exact ⟨rfl, allMade, follows, stands⟩

end Response

end Cache

namespace Logbook

variable [Keyed Value]

/-- Whatever has happened to a new cache: when the fetch of a batch gets a
response to the requests that it has missed, the batch returns, and every name
reads what the deposit says that is decisive for it.  That is one of the values
that the name was answered with, unless the response itself gets in the way.

The writes find room, the clock stands, requests with one label have one name,
and no value is fetched for a name that leads to a key which has been routed
elsewhere. -/
theorem response_read_back
    {settings : Settings} (valid : settings.Valid)
    (expressible : settings.timeToLive ≤ Duration.longest)
    (paddings : Nat → List Nat) (incidents : List (Incident Value))
    {misses : List Request} (keyOf : String → String)
    (keyed : ∀ request ∈ misses, request.name = keyOf request.label)
    {plan : Plan (ExtTreeMap String Value)}
    {response : ExtTreeMap String Value}
    (ending : plan.ending = .returns response)
    (found : ExtTreeMap String Value) {clock : Clock}
    (moved : (undergoAll settings (start settings paddings)
      incidents).scheduler.cache.clock.advance plan.advance = .ok clock)
    (steady : clock.Steady) {now : Instant} (shows : clock.read.1 = .ok now)
    (roomy : Cache.Each settings Cache.FindsRoom (undergoAll settings
        (start settings paddings) incidents).scheduler.cache
      ((Errand.collect found misses .byName plan).operation.acts settings
        (undergoAll settings (start settings paddings)
          incidents).scheduler.cache))
    (homes : ∀ request ∈ misses, request.label ∈ response →
      (undergoAll settings (start settings paddings)
        incidents).scheduler.cache.AtHome request.name) :
    let before := (undergoAll settings (start settings paddings)
      incidents).scheduler.cache
    let errand := Errand.collect found misses .byName plan
    let after := errand.leaves settings before
    let deposits := Cache.deposits settings misses response
    (∃ reply, errand.verdict settings before = .returned reply) ∧
      ∀ name value, Answers misses response name value →
        ∃ deposit ∈ deposits,
          Deposit.decisive? settings name (before.withClock clock) deposits =
              some deposit ∧
            Cache.Reads settings after name (deposit.shownUnder name) ∧
              (Cache.Undisturbed settings before misses response name →
                ∃ fetched, Answers misses response name fetched ∧
                  Cache.Reads settings after name (some (some fetched))) := by
  intro before errand after deposits
  have new : (Cache.empty settings paddings : Cache Value).Coherent :=
    Cache.coherent_empty valid paddings
  have coherent : before.Coherent :=
    coherent_undergoAll new settings incidents
  obtain ⟨returned, allMade, left, steadily, again⟩ :=
    Cache.ends_response coherent (valid.window_le expressible) ending moved
      steady shows homes roomy
  refine ⟨Errand.returned_of_returns returned, ?_⟩
  intro name value answers
  have moving : (before.withClock clock).Coherent := coherent.of_eq rfl rfl
  obtain ⟨deposit, decides⟩ := Deposit.exists_decisive?
    (Cache.mem_deposits_of_answers keyed answers) settings
      (before.withClock clock)
  have member := Deposit.mem_of_decisive? decides
  have reads : Cache.Reads settings after name (deposit.shownUnder name) := by
    have shown := allMade.shown_place moving name
    dsimp only at shown decides
    rw [decides, ← left] at shown
    dsimp only at shown
    rw [← shown]
    exact Cache.reads_place settings (errand.coherent_leaves settings coherent)
      (Cache.deciding_of_steady steadily again name)
  refine ⟨deposit, member, decides, reads, ?_⟩
  intro undisturbed
  have same : deposit.name = name := by
    refine allMade.name_of_decisive? moving ?_ decides
    intro other among leads
    obtain ⟨request, asked, called, _⟩ :=
      Cache.exists_request_of_mem_deposits among
    rw [← called] at leads ⊢
    exact undisturbed.alone request asked leads
  obtain ⟨fetched, given⟩ := Option.ne_none_iff_exists'.mp
    (Cache.value_ne_none_of_mem_deposits keyed undisturbed.answered
      undisturbed.once member same)
  obtain ⟨request, asked, called, answered⟩ :=
    Cache.exists_request_of_mem_deposits member
  refine ⟨fetched, ⟨request, asked, called.trans same,
    answered fetched given⟩, ?_⟩
  have shown : deposit.shownUnder name = some (some fetched) := by
    rw [Deposit.shownUnder, given]
  rw [← shown]
  exact reads

/-- Missing records are stored. -/
def diligent : Settings :=
  { Settings.twoShards with storesMissing := true }

/-- A value with an alias, both expired. -/
def lapsed : List (Incident NameTag) :=
  [.operation (.act (.write ⟨"d", some ⟨"d", ["x"]⟩, ["x"]⟩)),
    .operation (.act (.quiet (.advance 2000)))]

/-- The names that three labels stand for, the alias among them. -/
def nameOf (label : String) : String :=
  if label = "first" then "x" else if label = "second" then "a" else "b"

def requested : List Request :=
  ["first", "second", "third"].map fun label => ⟨label, nameOf label⟩

/-- A response that leaves out the second request. -/
def partialResponse : ExtTreeMap String NameTag :=
  ((∅ : ExtTreeMap String NameTag).insert "first" ⟨"d", ["x"]⟩).insert "third"
    ⟨"b", []⟩

/-- The alias reads back the value that was fetched for it. -/
theorem response_read_back_lapsed :
    diligent.Valid ∧
      (let before := (undergoAll diligent (start diligent fun _ => [])
        lapsed).scheduler.cache
      let errand : Errand NameTag :=
        .collect ∅ requested .byName ⟨0, 0, .returns partialResponse⟩
      Cache.result? (Cache.lookup diligent "x") before = some .absent ∧
        Cache.Reads diligent (errand.leaves diligent before) "x"
          (some (some ⟨"d", ["x"]⟩))) := by
  have valid : diligent.Valid := by decide
  have expressible : diligent.timeToLive ≤ Duration.longest := by decide
  refine ⟨valid, ?_⟩
  intro before errand
  refine ⟨by decide +kernel, ?_⟩
  have keyed : ∀ request ∈ requested,
      request.name = nameOf request.label := by decide
  have moved : before.clock.advance 0 =
      .ok { Clock.start .manual with elapsed := 2000 } := by decide +kernel
  have steady : { Clock.start .manual with elapsed := 2000 }.Steady :=
    Clock.steady_of_still rfl
  have roomy : Cache.Each diligent Cache.FindsRoom before
      (errand.operation.acts diligent before) := by decide +kernel
  have homes : ∀ request ∈ requested, request.label ∈ partialResponse →
      before.AtHome request.name := by decide +kernel
  have undisturbed : Cache.Undisturbed diligent before requested
      partialResponse "x" :=
    ⟨by decide +kernel, fun _ => by decide +kernel, fun _ => by decide⟩
  have answers : Answers requested partialResponse "x" ⟨"d", ["x"]⟩ :=
    ⟨⟨"first", "x"⟩, List.mem_cons_self, rfl, by decide +kernel⟩
  dsimp only [before, errand] at moved roomy homes undisturbed ⊢
  generalize lapsed = incidents at moved roomy homes undisturbed ⊢
  obtain ⟨_, reads⟩ := response_read_back valid expressible (fun _ => [])
    incidents nameOf keyed rfl ∅ moved steady rfl roomy homes
  obtain ⟨_, _, _, _, found⟩ := reads "x" _ answers
  obtain ⟨fetched, ⟨request, asked, called, answered⟩, content⟩ :=
    found undisturbed
  have label : request.label = "first" :=
    (by decide : ∀ request ∈ requested, request.name = "x" →
      request.label = "first") request asked called
  have value : partialResponse["first"]? = some ⟨"d", ["x"]⟩ := by
    decide +kernel
  rw [label, value] at answered
  cases answered
  exact content

/-- A call of a batch that requests one label twice.  The call returns the value
that was fetched for it, and the name reads a missing record, for the second
request counts as left out. -/
theorem repeated_request_reads_missing :
    diligent.Valid ∧
      (let call : BatchCall NameTag :=
        ⟨[⟨"first", "a"⟩, ⟨"first", "a"⟩], .byName,
          [⟨0, 0, .returns ((∅ : ExtTreeMap String NameTag).insert "first"
            ⟨"a", []⟩)⟩]⟩
      let called := [.move (.callMany call), .move (.turn 0)]
      let new : Logbook NameTag := start diligent fun _ => []
      let after := (undergoAll diligent new called).scheduler
      Cache.Each diligent Cache.FindsRoom new.scheduler.cache
          (allActs diligent new called) ∧
        new.scheduler.cache.clock = after.cache.clock ∧
          ((after.verdict? 0).bind Verdict.values?).bind (·["first"]?) =
              some ⟨"a", []⟩ ∧
            Cache.result? (Cache.lookup diligent "a") after.cache =
              some (.missing false)) := by
  decide +kernel

end Logbook

end ReadThrough
