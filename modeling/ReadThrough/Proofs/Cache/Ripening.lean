import ReadThrough.Proofs.Cache.Elections

/-!
# Entries that become ripe

A written entry is due after its refresh time and alive until its deadline.  A
reader is elected in between, so there is an instant at which the entry can be
refreshed ahead exactly if the first lies before the second.

Valid settings keep the refresh window within the time to live, and the padding
stays below the end of the window.  They leave one case in which no such instant
remains: the window has no width and lies at the end of the time to live.
-/

namespace ReadThrough

variable {Value : Type} {settings : Settings} {window : RefreshWindow}
  {draft : Draft Value} {entry : Entry Value} {now : Instant}

/-- An entry becomes ripe if it is due before its deadline. -/
theorem Entry.exists_ripe_iff
    {due : Instant} (set : entry.refreshAt = some due)
    (fits : Instant.Representable entry.expiresAt) :
    (∃ instant, Instant.Representable instant ∧ entry.Ripe instant) ↔
      due < entry.expiresAt := by
  simp only [Entry.Ripe, set, Option.mem_some_iff, exists_eq_left']
  constructor
  · rintro ⟨instant, _, alive, late⟩
    exact Nat.lt_of_lt_of_le late alive
  · exact fun late => ⟨entry.expiresAt, fits, Nat.le_refl _, late⟩

/-- A padding that is less than the width of a window, or nothing, does not take
the beginning of the window to the end of the life that it lies in. -/
theorem padded_lt_iff
    {earliest latest life padding : Nat} (ordered : earliest ≤ latest)
    (inTime : latest ≤ life)
    (narrow : padding = 0 ∨ padding < latest - earliest) :
    earliest + padding < life ↔ earliest < life := by
  omega

namespace Cache

/-- Whatever the padding, an entry that has been written becomes ripe exactly if
the refresh window begins before the end of the time to live. -/
theorem IsFresh.exists_ripe_iff
    (fresh : IsFresh settings draft now entry)
    (operable : settings.Operable) (ahead : settings.refresh = some window)
    (fits : Instant.Representable (now + settings.timeToLive)) :
    (∃ instant, Instant.Representable instant ∧ entry.Ripe instant) ↔
      window.earliest < settings.timeToLive := by
  obtain ⟨ordered, inTime, _⟩ := operable.window window ahead
  obtain ⟨padding, narrow, set⟩ := fresh.scheduled window ahead
  have within : padding ≤ window.latest - window.earliest :=
    narrow.elim (fun none => none ▸ Nat.zero_le _) Nat.le_of_lt
  have reaches : window.earliest + padding ≤ settings.timeToLive :=
    Nat.le_trans (Nat.add_le_of_le_sub' ordered within) inTime
  have expires : entry.expiresAt = now + settings.timeToLive :=
    fresh.expiresAt.trans (deadline_of_representable fits)
  have before : Instant.Representable (now + (window.earliest + padding)) :=
    Nat.lt_of_le_of_lt (Nat.add_le_add_left reaches now) fits
  rw [deadline_of_representable before] at set
  rw [Entry.exists_ripe_iff set (expires ▸ fits), expires]
  exact Nat.add_lt_add_iff_left.trans (padded_lt_iff ordered inTime narrow)

/-- A reader at one instant is elected if the entry that is held where its name
leads is ripe. -/
theorem ends_lookup_of_held
    {cache : Cache Value} {name : String} {place : Nat × String}
    {names : List String} (coherent : cache.Coherent)
    (ahead : settings.refresh = some window)
    (held : cache.held place = some (entry, names))
    (led : cache.place name = place) (shows : cache.clock.Shows now 2) :
    Ends (lookup settings name) cache
      (fun found _ => found.refreshes = true ↔ entry.Ripe now)
      (fun _ _ => False) := by
  refine (ends_lookup_tells coherent shows name).weaken ?_ fun _ _ => id
  rintro found next ⟨_, elected, _⟩
  rw [elected, ahead, RipeAt, led, held]
  simp

/-- Where entries are refreshed ahead, whatever has been done to a new cache: a
write that is not dropped, at a reading from which the time to live does not
lead past the horizon, stores an entry unless an alias conflicts.  There is an
instant at which the entry is alive and due if and only if the refresh window
begins before the end of the time to live.  Whatever is done afterwards, as long
as the entry is what its place holds a reader is elected at just these
instants. -/
theorem written_entry_ripens_iff [Keyed Value]
    (valid : settings.Valid) (ahead : settings.refresh = some window)
    (paddings : Nat → List Nat) (operations : List (Operation Value))
    (draft : Draft Value)
    (kept : ¬ (operate settings (empty settings paddings) operations).Drops
      settings draft.key)
    (reads : (operate settings (empty settings paddings)
      operations).clock.read.1 = .ok now)
    (fits : Instant.Representable (now + settings.timeToLive)) :
    let before := operate settings (empty settings paddings) operations
    let own := (before.route draft.key, draft.key)
    Ends (writeDraft settings draft) before
      (fun _ after => ∃ (entry : Entry Value) (names : List String),
        after.held own = some (entry, names) ∧
          after.place draft.key = own ∧
          IsFresh settings draft now entry ∧
          ((∃ instant, Instant.Representable instant ∧
              entry.Ripe instant) ↔
            window.earliest < settings.timeToLive) ∧
          ∀ (more : List (Operation Value)) (name : String)
            (instant : Instant),
            let later := operate settings after more
            later.held own = some (entry, names) →
            later.place name = own → later.clock.Shows instant 2 →
              Ends (lookup settings name) later
                (fun found _ => found.refreshes = true ↔
                  entry.Ripe instant)
                (fun _ _ => False))
      (fun _ _ => before.Conflicts draft) := by
  intro before own
  have coherent : before.Coherent :=
    coherent_of_operations valid paddings operations
  have expressible : settings.timeToLive ≤ Duration.longest :=
    Nat.le_trans (Nat.le_add_left _ now)
      (Nat.le_of_lt (Nat.lt_of_lt_of_le fits (by decide)))
  obtain ⟨shard, seat⟩ := coherent.seat draft.key
  have stays := coherent.ends_of_respects
    (respects_write_runs settings draft.key draft.value draft.aliases)
  refine ((ends_writeDraft_rewrites coherent (valid.window_le expressible)
    kept).and stays).weaken ?_ ?_
  · rintro evicted after ⟨⟨_, instant, rewrites⟩, coherentAfter⟩
    have same : instant = now := by
      have shown := congrArg Prod.fst rewrites.reading
      exact Except.ok.inj (shown.symm.trans reads)
    subst same
    have fresh := isFresh_freshEntry settings draft instant shard
    have held : after.held own = some (shard.freshEntry settings draft instant,
        Shard.boundAliases draft.key draft.aliases) := by
      rw [rewrites.held coherent seat, if_pos rfl]
    refine ⟨_, _, held, ?_, fresh,
      fresh.exists_ripe_iff valid.operable ahead fits, ?_⟩
    · have here := rewrites.seat shard seat
      rw [← rewrites.route_key] at here
      have stored : draft.key ∈ (shard.rewritten settings draft
          instant).entries := by
        rw [Shard.rewritten, Shard.entries_upsert, Shard.key_freshEntry]
        exact Std.ExtTreeMap.mem_insert_self
      rw [place_of_seat here, rewrites.route_key,
        Shard.primary_of_stored stored]
    · intro more name reading later still led shows
      exact ends_lookup_of_held
        (coherentAfter.of_runs (runs_operate settings after more)) ahead still
        led shows
  · rintro fault next ⟨conflicts | unread, _⟩
    · exact conflicts
    · cases reads.symm.trans unread

/-- The refresh window ends with the time to live, and its beginning is so many
nanoseconds earlier. -/
def lateWindow (width : Duration) : Settings :=
  { Settings.twoShards with refresh := some ⟨1000 - width, 1000, 5⟩ }

/-- A key whose entry had an alias before. -/
def rewrittenLate : List (Operation NameTag) :=
  [.act (.write ⟨"a", some ⟨"a", ["t"]⟩, ["t"]⟩)]

/-- With a window of two nanoseconds and the largest padding, an entry is due in
the last nanosecond of its life, and a reader by its alias is elected then. -/
theorem written_entry_ripens_iff_lastNanosecond :
    let settings := lateWindow 2
    let before := operate settings (empty settings fun _ => [1, 1])
      rewrittenLate
    let draft : Draft NameTag := ⟨"a", some ⟨"a", ["x"]⟩, ["x"]⟩
    settings.Valid ∧ settings.refresh = some ⟨998, 1000, 5⟩ ∧
      ¬ before.Drops settings draft.key ∧
      before.clock.read.1 = .ok 0 ∧
      Instant.Representable (0 + settings.timeToLive) ∧
        Ends (writeDraft settings draft) before
          (fun _ after => (∃ entry names,
              after.held (before.route draft.key, draft.key) =
                  some (entry, names) ∧
                entry.refreshAt = some 999 ∧
                ∃ instant, Instant.Representable instant ∧
                  entry.Ripe instant) ∧
            Ends (lookup settings "x")
              (operate settings after [.act (.quiet (.advance 1000))])
              (fun found _ => found.refreshes = true) (fun _ _ => False))
          (fun _ _ => False) := by
  intro settings before draft
  have valid : settings.Valid := by decide
  have kept : ¬ before.Drops settings draft.key := by decide +kernel
  have reads : before.clock.read.1 = .ok 0 := by decide +kernel
  have fits : Instant.Representable (0 + settings.timeToLive) := by decide
  have answered : answer (writeDraft settings draft) before = .ok false := by
    decide +kernel
  -- What is held, where the alias leads and what the clock shows in the end.
  have course :
      let after := final (writeDraft settings draft) before
      let later := operate settings after [.act (.quiet (.advance 1000))]
      let own := (before.route draft.key, draft.key)
      later.held own = after.held own ∧
        (∀ held ∈ after.held own,
          held.1.refreshAt = some 999 ∧ held.1.Ripe 1000) ∧
        later.place "x" = own ∧
        ∀ number < 2, (later.clock.skip number).read.1 = .ok 1000 := by
    decide +kernel
  refine ⟨valid, rfl, kept, reads, fits, ?_⟩
  dsimp only [before] at kept reads answered course ⊢
  generalize rewrittenLate = operations at kept reads answered course ⊢
  generalize [Operation.act (.quiet (.advance 1000))] = more at course ⊢
  have stated := written_entry_ripens_iff valid rfl (fun _ => [1, 1])
    operations draft kept reads fits
  rw [ends_iff_answer, answered] at stated ⊢
  dsimp only at stated course ⊢
  obtain ⟨entry, names, held, _, _, ripens, elects⟩ := stated
  obtain ⟨still, ripe, led, shows⟩ := course
  obtain ⟨due, late⟩ := ripe _ held
  refine ⟨⟨entry, names, held, due, ripens.mpr (by decide)⟩, ?_⟩
  have reader := elects more "x" 1000 (still.trans held) led shows
  exact reader.weaken (fun _ _ elected => elected.mpr late) fun _ _ => id

/-- When the window has no width, the entry expires when it would become due.
No reader is ever elected, neither in the last nanosecond of its life nor
after it. -/
theorem closed_window_elects_nobody :
    let settings := lateWindow 0
    let after := operate settings (empty settings fun _ => []) rewrittenLate
    let later := operate settings after [.act (.quiet (.advance 1000))]
    settings.Valid ∧ settings.refresh = some ⟨1000, 1000, 5⟩ ∧
      (∃ held ∈ after.held (after.place "a"),
        ∀ instant, ¬ held.1.Ripe instant) ∧
      answer (lookup settings "a") later =
        .ok (.found ⟨"a", ["t"]⟩ false) ∧
      answer (lookup settings "a")
          (operate settings later [.act (.quiet (.advance 1))]) =
        .ok .absent := by
  intro settings after later
  have shut : ∃ held ∈ after.held (after.place "a"),
      held.1.refreshAt = some held.1.expiresAt := by
    decide +kernel
  refine ⟨by decide, rfl, ?_, by decide +kernel, by decide +kernel⟩
  obtain ⟨held, there, due⟩ := shut
  refine ⟨held, there, ?_⟩
  rintro instant ⟨alive, _, set, late⟩
  cases due.symm.trans set
  exact Nat.not_lt.mpr alive late

end Cache

end ReadThrough
