import ReadThrough.Settings.Environment

/-!
# Settings that a cache can work with

Validation accepts the settings that are `Operable` and no others.  Building
settings rejects nothing: whatever a cache cannot work with is left to
validation.

The sweep interval is to be the time to live divided by the number of shards, so
that a round over them takes at most one time to live (`Rounds`).  Of the number
of shards the division sees the lower 32 bits.  `interval_divides_timeToLive`
says for which numbers this is enough.
-/

namespace ReadThrough.Settings

/-! ## Validation -/

/-- A cache can work with the settings. -/
structure Operable (settings : Settings) : Prop where
  shards : 0 < settings.shardCount
  share : settings.shardCount ≤ settings.capacity
  lives : 0 < settings.timeToLive
  percentage : settings.evictionPercentage ≤ 100
  sweeps : settings.sweeping = true → 0 < settings.sweepInterval
  window : ∀ window ∈ settings.refresh,
    window.earliest ≤ window.latest ∧
      window.latest ≤ settings.timeToLive ∧ 0 < window.retryBase

/-- A check finds nothing if its condition fails and the later ones find
nothing. -/
theorem check_eq_none_iff
    {condition : Prop} [Decidable condition] {defect : Defect}
    {later : Option Defect} :
    (if condition then some defect else later) = none ↔
      ¬ condition ∧ later = none := by
  by_cases met : condition
  · simp [met]
  · simp [met]

theorem windowDefect?_eq_none_iff
    {timeToLive : Duration} {window : RefreshWindow} :
    windowDefect? timeToLive window = none ↔
      window.earliest ≤ window.latest ∧ window.latest ≤ timeToLive ∧
        0 < window.retryBase := by
  rw [windowDefect?, check_eq_none_iff, check_eq_none_iff, check_eq_none_iff,
    Nat.not_lt, Nat.not_lt, Nat.pos_iff_ne_zero]
  exact and_congr_right' (and_congr_right' (and_iff_left rfl))

/-- Settings without a defect are those that a cache can work with. -/
theorem valid_iff_operable {settings : Settings} :
    settings.Valid ↔ settings.Operable := by
  have windows :
      settings.refresh.bind (windowDefect? settings.timeToLive) = none ↔
        ∀ window ∈ settings.refresh,
          window.earliest ≤ window.latest ∧
            window.latest ≤ settings.timeToLive ∧ 0 < window.retryBase := by
    simp only [Option.bind_eq_none_iff, windowDefect?_eq_none_iff,
      Option.mem_def]
  simp only [Valid, defect?, check_eq_none_iff, windows]
  constructor
  · rintro ⟨_, shards, share, lives, percentage, sweeps, window⟩
    refine ⟨Nat.pos_of_ne_zero shards, Nat.not_lt.mp share,
      Nat.pos_of_ne_zero lives, Nat.not_lt.mp percentage, ?_, window⟩
    exact fun sweeping => Nat.pos_of_ne_zero fun never =>
      sweeps ⟨sweeping, never⟩
  · intro operable
    have inhabited := Nat.lt_of_lt_of_le operable.shards operable.share
    refine ⟨Nat.ne_of_gt inhabited, Nat.ne_of_gt operable.shards,
      Nat.not_lt.mpr operable.share, Nat.ne_of_gt operable.lives,
      Nat.not_lt.mpr operable.percentage, ?_, operable.window⟩
    rintro ⟨sweeping, never⟩
    exact Nat.ne_of_gt (operable.sweeps sweeping) never

theorem Valid.operable {settings : Settings} (valid : settings.Valid) :
    settings.Operable :=
  valid_iff_operable.mp valid

/-- Validation reports a defect of all other settings. -/
theorem validate_of_not_operable
    {settings : Settings} (inoperable : ¬ settings.Operable) :
    ∃ defect : Defect, settings.validate =
      .error (.invalidSettings defect.message) := by
  rw [← valid_iff_operable, Valid] at inoperable
  obtain ⟨defect, found⟩ := Option.ne_none_iff_exists'.mp inoperable
  exact ⟨defect, by rw [validate, found]⟩

theorem validate_of_operable
    {settings : Settings} (operable : settings.Operable) :
    settings.validate = .ok () := by
  rw [validate, show settings.defect? = none from
    valid_iff_operable.mpr operable]

/-! ## Basic values -/

/-- The four values that settings are built from. -/
structure Basics where
  capacity : Nat
  shardCount : Nat
  timeToLive : Duration
  evictionPercentage : Nat

namespace Basics

/-- The settings that are built from the values. -/
def build (basics : Basics) : Except Fault Settings :=
  ofBasics basics.capacity basics.shardCount basics.timeToLive
    basics.evictionPercentage

/-- The values that an environment gives. -/
def ofEnvironment (environment : Environment) : Basics where
  capacity := (environment.word? "CACHE_CAPACITY").getD 10000
  shardCount := (environment.word? "CACHE_SHARDS").getD 10
  timeToLive :=
    Duration.ofSeconds ((environment.word? "CACHE_TTL_SECS").getD 300)
  evictionPercentage :=
    (environment.byte? "CACHE_EVICTION_PERCENTAGE").getD 10

/-- The settings have these values. -/
structure Kept (basics : Basics) (settings : Settings) : Prop where
  capacity : settings.capacity = basics.capacity
  shardCount : settings.shardCount = basics.shardCount
  timeToLive : settings.timeToLive = basics.timeToLive
  evictionPercentage :
    settings.evictionPercentage = basics.evictionPercentage

/-- Either the number of shards has 32 bits, or its lower 32 bits are a number
larger than the time to live, so that no nanosecond is left for a tick either
way. -/
def Divides (basics : Basics) : Prop :=
  basics.shardCount < 4294967296 ∨
    basics.timeToLive < lowerHalf basics.shardCount

end Basics

/-! ## Sweep intervals -/

/-- A round of ticks over all shards takes at most one time to live, and with an
interval that is a nanosecond longer it would take more. -/
def Rounds (settings : Settings) : Prop :=
  settings.sweepInterval * settings.shardCount ≤ settings.timeToLive ∧
    settings.timeToLive < (settings.sweepInterval + 1) * settings.shardCount

theorem rounds_iff {settings : Settings} (some : 0 < settings.shardCount) :
    settings.Rounds ↔
      settings.timeToLive / settings.shardCount = settings.sweepInterval := by
  constructor
  · exact fun rounds => Nat.div_eq_of_lt_le rounds.1 rounds.2
  · intro divided
    rw [Rounds, ← divided]
    refine ⟨Nat.div_mul_le_self _ _, ?_⟩
    rw [Nat.mul_comm]
    exact Nat.lt_mul_div_succ _ some

/-- The lower half of a larger number is smaller by more than any such half. -/
theorem lowerHalf_add_le {number : Nat} (large : ¬ number < 4294967296) :
    lowerHalf number + 4294967296 ≤ number := by
  rw [lowerHalf]
  omega

/-- Where something is left of a division by the lower half of a number with
more than 32 bits, less is left of the division by the number. -/
theorem div_lowerHalf_eq_iff
    {number : Nat} (some : lowerHalf number ≠ 0) (duration : Nat) :
    duration / number = duration / lowerHalf number ↔
      number < 4294967296 ∨ duration < lowerHalf number := by
  by_cases small : number < 4294967296
  · have whole : lowerHalf number = number := Nat.mod_eq_of_lt small
    simp [whole, small]
  · have larger := lowerHalf_add_le small
    have positive := Nat.pos_of_ne_zero some
    constructor
    · intro same
      refine .inr (Nat.not_le.mp fun reaches => ?_)
      have once : 1 ≤ duration / lowerHalf number :=
        (Nat.one_le_div_iff positive).mpr reaches
      have most : duration / lowerHalf number * number ≤ duration :=
        same ▸ Nat.div_mul_le_self duration number
      have least := Nat.lt_mul_div_succ duration positive
      generalize duration / lowerHalf number = quotient at *
      have half : lowerHalf number < 4294967296 :=
        Nat.mod_lt number (by decide)
      have : lowerHalf number * (quotient + 1) ≤ quotient * number := by
        calc lowerHalf number * (quotient + 1)
            = quotient * lowerHalf number + 1 * lowerHalf number := by
              rw [← Nat.add_mul, Nat.mul_comm]
          _ ≤ quotient * lowerHalf number + quotient * 4294967296 :=
              Nat.add_le_add_left
                (Nat.mul_le_mul once (Nat.le_of_lt half)) _
          _ = quotient * (lowerHalf number + 4294967296) :=
              (Nat.mul_add _ _ _).symm
          _ ≤ quotient * number := Nat.mul_le_mul_left quotient larger
      omega
    · intro fits
      have short : duration < lowerHalf number :=
        fits.resolve_left small
      rw [Nat.div_eq_of_lt short,
        Nat.div_eq_of_lt (Nat.lt_of_lt_of_le short (by omega))]

/-- What is built from basic values. -/
structure Basics.Yields
    (basics : Basics) (built : Except Fault Settings) : Prop where
  interval :
    (∃ settings, built = .ok settings ∧ basics.Kept settings ∧
      settings.Rounds) ↔ basics.Divides
  breaks : ∀ fault, built = .error fault ↔
    fault = .durationDividedByZero ∧ lowerHalf basics.shardCount = 0
  values : ∀ settings, built = .ok settings →
    basics.Kept settings ∧ settings.sweepInterval =
      basics.timeToLive / lowerHalf basics.shardCount
  validation : ∀ settings, built = .ok settings →
    (settings.Operable → settings.validate = .ok ()) ∧
      (¬ settings.Operable → ∃ defect : Defect,
        settings.validate = .error (.invalidSettings defect.message))

namespace Basics

variable {basics : Basics} {finish : Settings → Settings}

theorem build_of_lowerHalf_eq_zero
    (some : 0 < basics.shardCount) (half : lowerHalf basics.shardCount = 0) :
    basics.build = .error .durationDividedByZero := by
  rw [build, ofBasics, defaultInterval, if_neg (Nat.ne_of_gt some),
    if_pos half]
  rfl

theorem build_of_lowerHalf_ne_zero
    (some : 0 < basics.shardCount) (half : lowerHalf basics.shardCount ≠ 0) :
    ∃ settings, basics.build = .ok settings ∧ basics.Kept settings ∧
      settings.sweepInterval =
        basics.timeToLive / lowerHalf basics.shardCount := by
  rw [build, ofBasics, defaultInterval, if_neg (Nat.ne_of_gt some),
    if_neg half]
  exact ⟨_, rfl, ⟨rfl, rfl, rfl, rfl⟩, rfl⟩

/-- To finish the settings, without touching the basic values and the interval,
makes no difference. -/
theorem yields_map_build
    (some : 0 < basics.shardCount)
    (keeps : ∀ settings, basics.Kept settings →
      basics.Kept (finish settings))
    (same : ∀ settings,
      (finish settings).sweepInterval = settings.sweepInterval) :
    basics.Yields (basics.build.map finish) := by
  have validation : ∀ settings : Settings,
      (settings.Operable → settings.validate = .ok ()) ∧
        (¬ settings.Operable → ∃ defect : Defect,
          settings.validate = .error (.invalidSettings defect.message)) :=
    fun _ => ⟨validate_of_operable, validate_of_not_operable⟩
  by_cases half : lowerHalf basics.shardCount = 0
  · rw [build_of_lowerHalf_eq_zero some half]
    refine ⟨⟨nofun, ?_⟩, fun fault => by simp [Except.map, half, eq_comm],
      nofun, nofun⟩
    rintro (small | short)
    · rw [lowerHalf, Nat.mod_eq_of_lt small] at half
      exact absurd half (Nat.ne_of_gt some)
    · rw [half] at short
      exact absurd short (Nat.not_lt_zero _)
  · obtain ⟨settings, built, kept, interval⟩ :=
      build_of_lowerHalf_ne_zero some half
    replace kept := keeps settings kept
    rw [← same settings] at interval
    rw [built, Except.map]
    generalize finish settings = finished at kept interval ⊢
    have there : 0 < finished.shardCount := kept.shardCount ▸ some
    refine ⟨?_, fun fault => by simp [half], ?_,
      fun other _ => validation other⟩
    · have divides := div_lowerHalf_eq_iff half basics.timeToLive
      rw [← interval, ← kept.shardCount, ← kept.timeToLive,
        ← rounds_iff there, kept.shardCount, kept.timeToLive] at divides
      rw [Divides, ← divides]
      constructor
      · rintro ⟨_, ⟨⟩, _, rounds⟩
        exact rounds
      · exact fun rounds => ⟨finished, rfl, kept, rounds⟩
    · rintro _ ⟨⟩
      exact ⟨kept, interval⟩

end Basics

/-- An environment finishes the settings that its basic values build. -/
theorem ofEnvironment_eq (environment : Environment) :
    ofEnvironment environment =
      (Basics.ofEnvironment environment).build.map fun settings =>
        { settings with
          refresh := environment.refreshWindow?
          storesMissing :=
            ((environment "CACHE_STORE_MISSING").bind flag?).getD false } := by
  change (Basics.ofEnvironment environment).build >>= _ = _
  cases (Basics.ofEnvironment environment).build with
  | error fault => rfl
  | ok settings => rfl

/-- Settings are built from basic values, by a caller or by an environment,
unless the lower 32 bits of the number of shards are zero.  The sweep interval
is the time to live divided by the number of shards, rounded down, exactly if
the number has no more than 32 bits or both quotients are zero.  Whatever a
cache cannot work with is left to validation. -/
theorem interval_divides_timeToLive
    {basics : Basics} (some : 0 < basics.shardCount) :
    basics.Yields basics.build ∧
      ∀ environment, Basics.ofEnvironment environment = basics →
        basics.Yields (ofEnvironment environment) := by
  constructor
  · have whole : basics.Yields (basics.build.map id) :=
      Basics.yields_map_build some (fun _ => id) fun _ => rfl
    rwa [Except.map_id] at whole
  · rintro environment rfl
    rw [ofEnvironment_eq]
    refine Basics.yields_map_build some (fun settings kept => ?_)
      fun _ => rfl
    exact ⟨kept.capacity, kept.shardCount, kept.timeToLive,
      kept.evictionPercentage⟩

/-- An environment that sets the number of shards and the time to live. -/
def sevenShards : Environment := fun name =>
  if name = "CACHE_SHARDS" then some "+7"
  else if name = "CACHE_TTL_SECS" then some "1"
  else none

/-- Seven ticks fit into a second.  Of a number of shards with 33 bits whose
lower half is two, the interval is half a second, and a round takes longer. -/
theorem interval_divides_timeToLive_sevenths :
    let many : Basics := ⟨4294967298, 4294967298, Duration.ofSeconds 1, 10⟩
    0 < (Basics.ofEnvironment sevenShards).shardCount ∧ 0 < many.shardCount ∧
      (∃ settings, ofEnvironment sevenShards = .ok settings ∧
        settings.shardCount = 7 ∧ settings.sweepInterval = 142857142 ∧
          settings.Rounds) ∧
        ¬ ∃ settings, many.build = .ok settings ∧ many.Kept settings ∧
          settings.Rounds := by
  intro many
  have seven : (Basics.ofEnvironment sevenShards).shardCount = 7 := by
    decide +kernel
  have second : (Basics.ofEnvironment sevenShards).timeToLive /
      lowerHalf (Basics.ofEnvironment sevenShards).shardCount =
        142857142 := by decide +kernel
  have there : 0 < (Basics.ofEnvironment sevenShards).shardCount :=
    seven ▸ by decide
  have yields := (interval_divides_timeToLive there).2 sevenShards rfl
  obtain ⟨settings, built, kept, rounds⟩ :=
    yields.interval.mpr (.inl (seven ▸ by decide))
  have interval := (yields.values settings built).2.trans second
  have positive : 0 < many.shardCount := by decide
  refine ⟨there, positive, ⟨settings, built, kept.shardCount.trans seven,
    interval, rounds⟩, fun rounds => ?_⟩
  have divides := (interval_divides_timeToLive positive).1.interval.mp rounds
  revert divides
  unfold Basics.Divides
  decide +kernel

/-- A number of shards that is the first to need 33 bits leaves nothing to
divide by, and the next one leaves the whole time to live to every tick. -/
theorem shards_beyond_lower_half :
    ofBasics 4294967296 4294967296 (Duration.ofSeconds 10) 10 =
        .error .durationDividedByZero ∧
      (ofBasics 4294967297 4294967297 (Duration.ofSeconds 10) 10).map
          (·.sweepInterval) = .ok (Duration.ofSeconds 10) :=
  ⟨rfl, rfl⟩

end ReadThrough.Settings
