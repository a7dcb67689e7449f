import ReadThrough.Proofs.Cache.Coherence
import ReadThrough.Proofs.Scheduler
import ReadThrough.Session

/-!
# What sessions do to their caches

Whatever a session is commanded to do, and whatever its scheduler does
meanwhile, its cache is one that a run of acts leads to.  So what holds along
every run of a cache holds along every session.
-/

namespace ReadThrough.Session

open Cache (Runs Respects)

variable {Value Result : Type}

/-- A session goes on from another: with the same settings, and with a cache
that a run of acts leads to. -/
structure Leads (before after : Session Value) : Prop where
  settings_eq : after.settings = before.settings
  runs : Runs before.settings before.scheduler.cache after.scheduler.cache

instance : IsPreorder (Session Value) Leads where
  refl session := ⟨rfl, refl_of _ session.scheduler.cache⟩
  trans first second third := by
    intro ⟨sameThen, earlier⟩ ⟨sameLater, later⟩
    refine ⟨sameLater.trans sameThen, trans_of _ earlier ?_⟩
    rw [← sameThen]
    exact later

/-! ## Elementary commands -/

theorem leads_act
    (session : Session Value) {action : Cache.Action Value Result}
    (answer : Result → Answer Value)
    (respects : Respects (Runs session.settings) action) :
    Leads session (session.act action answer).2 := by
  rw [act]
  split
  next result next attempted =>
    exact ⟨rfl, Scheduler.relates_of_attempt respects attempted⟩
  next fault next attempted =>
    exact ⟨rfl, Scheduler.relates_of_attempt respects attempted⟩

theorem leads_scheduler
    (session : Session Value) {next : Scheduler Value}
    (reached : Runs session.settings session.scheduler.cache next.cache) :
    Leads session { session with scheduler := next } :=
  ⟨rfl, reached⟩

theorem leads_withTask
    (session : Session Value) (title : String)
    {use : TaskId → Answer Value × Session Value}
    (uses : ∀ task, Leads session (use task).2) :
    Leads session (session.withTask title use).2 := by
  rw [withTask]
  split
  next task _ => exact uses task
  · exact refl_of Leads session

section Actions

variable (settings : Settings)

theorem respects_insertPaced_runs
    (pace : Duration) (number : Nat) (records : List (String × Value))
    (forced : Nat × Option Nat) :
    Respects (Runs settings)
      (insertPaced settings pace number records forced) := by
  induction records generalizing number forced with
  | nil => exact Cache.respects_pure forced
  | cons record records inductionHypothesis =>
      have inserts : Respects (Runs settings)
          (Cache.insert settings record.1 record.2) :=
        Cache.respects_write_runs settings record.1 (some record.2) []
      rw [insertPaced]
      exact inserts.bind fun _ =>
        (Cache.respects_advanceClock_runs settings pace).bind fun _ =>
          inductionHypothesis _ _

theorem respects_race_runs (name : String) (readers : Nat) :
    Respects (@Runs Value settings) (race settings name readers) :=
  Cache.respects_foldlM
    (fun _ _ =>
      (Cache.respects_lookup_runs settings name).bind fun _ =>
        Cache.respects_pure _)
    _ _

theorem respects_locate_runs (name : String) :
    Respects (@Runs Value settings) (locate name) := by
  have readsBinding : ∀ index,
      Respects (@Runs Value settings) (Cache.bindingIn index name) :=
    fun index =>
      (Cache.respects_shardAt index).bind fun _ => Cache.respects_pure _
  have readsKey : ∀ index,
      Respects (@Runs Value settings) (Cache.keyOfAliasIn index name) :=
    fun index =>
      (Cache.respects_shardAt index).bind fun _ => Cache.respects_pure _
  exact (Cache.respects_shardIndex_runs settings name).bind fun index =>
    (readsBinding index).bind fun _ =>
      (readsKey index).bind fun _ => Cache.respects_pure _

theorem respects_inspect_runs (index : Nat) :
    Respects (@Runs Value settings) (inspect index) :=
  (Cache.respects_shardAt index).bind fun _ =>
    (Cache.respects_keysOf_runs settings index).bind fun _ =>
      Cache.respects_pure _

theorem respects_survey_runs (names : List String) :
    Respects (@Runs Value settings) (survey names) := by
  refine Respects.bind ?_ fun locations => ?_
  · exact Cache.respects_mapM (respects_locate_runs settings) names
  refine Cache.respects_get.bind fun cache => ?_
  refine Respects.bind ?_ fun inspections => ?_
  · exact Cache.respects_mapM (respects_inspect_runs settings) _
  exact Cache.respects_pure _

end Actions

/-! ## Commands -/

section Commands

variable [Keyed Value] (session : Session Value)

theorem leads_awaitTask (task : TaskId) :
    Leads session (session.awaitTask task).2 :=
  session.leads_scheduler
    (Scheduler.runs_passWithin session.settings _ _ _ session.scheduler)

theorem leads_runTask (stage : Stage Value) :
    Leads session (session.runTask stage).2 :=
  trans_of Leads
    (session.leads_scheduler
      (Scheduler.runs_settle session.settings
        (session.scheduler.spawn stage)))
    (leads_awaitTask _ _)

theorem leads_perform (command : Command Value) :
    Leads session (session.perform command).2 := by
  have unchanged := refl_of Leads session
  cases command with
  | advance duration =>
      exact session.leads_act _
        (Cache.respects_advanceClock_runs session.settings duration)
  | now =>
      exact session.leads_act _
        (Cache.respects_get.bind fun _ => Cache.respects_demand _)
  | layDown readings =>
      exact session.leads_act _
        (Cache.respects_act_runs (.quiet (.layDown readings)))
  | clone => exact session.leads_scheduler (refl_of _ _)
  | drop => exact session.leads_scheduler (refl_of _ _)
  | get name =>
      exact session.leads_act _
        ((Cache.respects_lookup_runs session.settings name).bind fun _ =>
          Cache.respects_pure _)
  | lookup name =>
      exact session.leads_act _
        (Cache.respects_lookup_runs session.settings name)
  | probe name =>
      exact session.leads_act _
        (Cache.respects_lookup_runs session.settings name)
  | getMany names =>
      exact session.leads_act _
        (Cache.respects_getManyBy_runs session.settings _)
  | getManyBy requests =>
      exact session.leads_act _
        (Cache.respects_getManyBy_runs session.settings requests)
  | insert key value =>
      exact session.leads_act _
        (Cache.respects_write_runs session.settings key (some value) [])
  | insertAliased key value aliases =>
      exact session.leads_act _
        (Cache.respects_write_runs session.settings key (some value) aliases)
  | insertKeyed value =>
      exact session.leads_act _
        (Cache.respects_write_runs session.settings _ _ _)
  | insertMissing key =>
      exact session.leads_act _
        (Cache.respects_insertMissing_runs session.settings key)
  | insertMany records =>
      have written := Cache.respects_writeAll_runs session.settings
        (records.map fun record => ⟨record.1, some record.2, []⟩)
      rw [List.map_map] at written
      exact session.leads_act _ written
  | insertManyKeyed values =>
      have written := Cache.respects_writeAll_runs session.settings
        (values.map fun value =>
          ⟨Keyed.key value, some value, Keyed.aliases value⟩)
      rw [List.map_map] at written
      exact session.leads_act _ written
  | insertPaced records pace =>
      exact session.leads_act _
        (respects_insertPaced_runs session.settings pace 0 records (0, none))
  | delete name =>
      exact session.leads_act _
        (Cache.respects_delete_runs session.settings name)
  | keys =>
      exact session.leads_act _ (Cache.respects_keys_runs session.settings)
  | size => exact unchanged
  | statistics => exact unchanged
  | flightCount => exact unchanged
  | settings => exact unchanged
  | route name =>
      exact session.leads_act _
        (Cache.respects_shardIndex_runs session.settings name)
  | routeMany names =>
      exact session.leads_act _
        (Cache.respects_mapM
          (Cache.respects_shardIndex_runs session.settings) names)
  | getFrom index name =>
      exact session.leads_act _
        (Cache.respects_runs_of_discard (.quiet (.readShard index name)) rfl)
  | inspect index =>
      exact session.leads_act _
        (respects_inspect_runs session.settings index)
  | binding index name =>
      exact session.leads_act _
        ((Cache.respects_shardAt index).bind fun _ => Cache.respects_pure _)
  | keyOfAlias index name =>
      exact session.leads_act _
        ((Cache.respects_shardAt index).bind fun _ => Cache.respects_pure _)
  | routeCount => exact unchanged
  | describe => exact unchanged
  | survey names =>
      exact session.leads_act _
        (respects_survey_runs session.settings names)
  | race name readers =>
      exact session.leads_act _
        (respects_race_runs session.settings name readers)
  | fetch call => exact session.leads_runTask (.single call)
  | fetchMany call => exact session.leads_runTask (.batch call)
  | startFetch title call => exact ⟨rfl, refl_of _ _⟩
  | startFetchMany title call => exact ⟨rfl, refl_of _ _⟩
  | await title => exact session.leads_withTask title session.leads_awaitTask
  | isOver title => exact session.leads_withTask title fun _ => unchanged
  | abort title =>
      refine session.leads_withTask title fun task => ?_
      apply session.leads_scheduler
      rw [Scheduler.cache_abort]
      exact refl_of _ session.scheduler.cache
  | sleep milliseconds =>
      exact session.leads_scheduler
        (Scheduler.runs_passWithin session.settings _ _ _ session.scheduler)

theorem leads_execute (command : Command Value) :
    Leads session (session.execute command).2 := by
  have reports : ∀ (session : Session Value) (answer : Answer Value),
      Leads session (session.report command answer).2 :=
    fun session _ => ⟨rfl, [.quiet .emptyJournal], rfl⟩
  rw [execute]
  split
  · exact reports session .noHandle
  · exact trans_of Leads (session.leads_perform command)
      (trans_of Leads
        (leads_scheduler _ (Scheduler.runs_settle _ _)) (reports _ _))

/-- The session after commands that are carried out one after the other. -/
def follow (session : Session Value) (commands : List (Command Value)) :
    Session Value :=
  commands.foldl (fun session command => (session.execute command).2) session

/-- `follow` leaves the session from which further reports come. -/
theorem run_append (early late : List (Command Value)) :
    session.run (early ++ late) =
      session.run early ++ (session.follow early).run late := by
  induction early generalizing session with
  | nil => rfl
  | cons command early inductionHypothesis =>
      exact congrArg ((session.execute command).1 :: ·)
        (inductionHypothesis (session.execute command).2)

theorem leads_follow (commands : List (Command Value)) :
    Leads session (session.follow commands) := by
  induction commands generalizing session with
  | nil => exact refl_of Leads session
  | cons command commands inductionHypothesis =>
      exact trans_of Leads (session.leads_execute command)
        (inductionHypothesis _)

end Commands

/-! ## From the start -/

section Started

variable {settings : Settings} {hasBackground : Bool}
  {session : Session Value}
  (started : start settings hasBackground = .ok session)

include started

theorem start_inversion :
    settings.Valid ∧ session.settings = settings ∧
      session.scheduler.cache = Cache.empty settings fun _ => [] := by
  rw [start, Scheduler.create, Settings.validate] at started
  cases defect : settings.defect? with
  | some found =>
      rw [defect] at started
      cases started
  | none =>
      rw [defect] at started
      dsimp only [bind, Except.bind] at started
      split at started
      next noScheduler => cases started
      next scheduler created =>
        split at created
        · cases created
        · cases created
          cases started
          exact ⟨defect, rfl, rfl⟩

variable [Keyed Value]

/-- Whatever a session was commanded to do, its cache is one that a run of acts
on a new cache leads to. -/
theorem runs_follow (commands : List (Command Value)) :
    Runs settings (Cache.empty settings fun _ => [])
      (session.follow commands).scheduler.cache := by
  obtain ⟨_, sameSettings, sameCache⟩ := start_inversion started
  have reached := (session.leads_follow commands).runs
  rw [sameSettings, sameCache] at reached
  exact reached

theorem coherent_follow (commands : List (Command Value)) :
    (session.follow commands).scheduler.cache.Coherent := by
  have valid := (start_inversion started).1
  exact (Cache.coherent_empty valid _).of_runs (runs_follow started commands)

end Started

end ReadThrough.Session
