import ReadThrough.Proofs.Cache.Elections

/-!
# The refresh schedule of a written entry

Every write of a key starts the refresh schedule of its entry anew.  From then
on the reads of the entry keep to the schedule, whatever the clock shows them
and in whatever order their parts come.
-/

namespace ReadThrough

open Std (ExtTreeMap)

/-- Entries become due between ten and twenty nanoseconds after a write, and the
first pause takes five. -/
def Settings.ahead : Settings :=
  { Settings.twoShards with refresh := some ⟨10, 20, 5⟩ }

namespace Cache

variable {Value : Type} [Keyed Value]

/-- Where entries are refreshed ahead, whatever has been done to a new cache: a
write that is not dropped stores an entry that has elected nobody yet and that
becomes due after a time within the refresh window, unless an alias conflicts or
the clock cannot be read.  As long as nothing else touches the entry, its
readers, however many there are, keep to the schedule.  In any cache a read is a
race of one reader, and a read that takes no part in elections leaves the store
alone. -/
theorem reads_keep_schedule
    {settings : Settings} {window : RefreshWindow}
    (valid : settings.Valid)
    (expressible : settings.timeToLive ≤ Duration.longest)
    (ahead : settings.refresh = some window)
    (paddings : Nat → List Nat) (operations : List (Operation Value))
    (draft : Draft Value)
    (kept : ¬ (operate settings (empty settings paddings) operations).Drops
      settings draft.key) :
    let before := operate settings (empty settings paddings) operations
    Ends (writeDraft settings draft) before
      (fun _ after =>
        ∃ (now : Instant) (shard : Shard Value) (entry : Entry Value)
          (pause : Duration),
          before.clock.read = (.ok now, after.clock) ∧
          after.shards[before.route draft.key]? = some shard ∧
          shard.entries[draft.key]? = some entry ∧
          entry.value = draft.value ∧ entry.retries = 0 ∧
          entry.refreshAt = some (deadline now pause) ∧
          window.earliest ≤ pause ∧ pause ≤ window.latest ∧
          ∀ (count : Nat) (names : Fin count → String)
            (race : Race Value count) (parts : List (Race.Part Value count)),
            race.shard = shard →
            (∀ reader, shard.primary (names reader) = draft.key) →
            Race.Undisturbed window names draft.key race parts →
              Race.OnSchedule window names draft.key entry race parts)
      (fun fault _ => before.Conflicts draft ∨
        before.clock.read.1 = .error fault) ∧
    (∀ (cache : Cache Value) (index : Nat) (shard : Shard Value)
      (name : String), cache.shards[index]? = some shard →
        Ends (getFrom settings index name) cache
          (fun lookup next =>
            ∃ (first second : Instant) (race : Race Value 1),
              cache.clock.read.1 = .ok first ∧
              (shard.glance name first = none →
                cache.clock.read.2.read.1 = .ok second) ∧
              (Race.start shard).follow (some window) (fun _ => name)
                  [.glance 0 first, .elect 0 second] = race ∧
              race.readers 0 = .answered lookup ∧
              Reseats index race.shard cache next)
          (fun _ next => Untouched cache next)) ∧
    ∀ (cache : Cache Value) (name : String),
      Untouched cache (final (peek name) cache) := by
  intro before
  have coherent : before.Coherent :=
    coherent_of_operations valid paddings operations
  have windows := valid.window_le expressible
  obtain ⟨ordered, _⟩ := windows window ahead
  obtain ⟨shard, seat⟩ := coherent.seat draft.key
  refine ⟨(ends_writeDraft_rewrites coherent windows kept).weaken ?_
    fun _ _ => id, fun cache index shard name seat => ?_, fun cache name =>
      respects_final (respects_peek_untouched name) cache⟩
  · rintro evicted after ⟨_, now, rewrites⟩
    have fresh := isFresh_freshEntry settings draft now shard
    obtain ⟨padding, narrow, set⟩ := fresh.scheduled window ahead
    have within : padding ≤ window.latest - window.earliest :=
      narrow.elim (fun none => none ▸ Nat.zero_le _) Nat.le_of_lt
    have stored : (shard.rewritten settings draft now).entries[draft.key]? =
        some (shard.freshEntry settings draft now) := by
      rw [Shard.rewritten, Shard.entries_upsert, Shard.key_freshEntry,
        ExtTreeMap.getElem?_insert_self]
    refine ⟨now, _, _, window.earliest + padding, rewrites.reading,
      rewrites.seat shard seat, stored, fresh.value, fresh.retries, set,
      Nat.le_add_right _ _, Nat.add_le_of_le_sub' ordered within, ?_⟩
    intro count names race parts same led undisturbed
    rw [← same] at stored led
    exact Race.onSchedule ⟨stored, led⟩ fresh.retries undisturbed
  · rw [← ahead]
    exact ends_getFrom_race seat name

/-- Three reads of one entry by its key and by an alias, at readings that go
back.  The first and the second find the entry ripe, and the second is elected;
the third comes after the pause and is elected as well. -/
def threeReads {count : Nat} (first second third : Fin count) :
    List (Race.Part NameTag count) :=
  [.glance first 20, .glance second 15, .elect second 12, .elect first 17,
    .glance third 30, .elect third 18]

/-- The key has been written before, without an alias. -/
def writtenBefore : List (Operation NameTag) :=
  [.act (.write ⟨"a", some ⟨"a", []⟩, []⟩)]

/-- After two elections the entry is due ten nanoseconds after the second.  The
reader whose second reading is not after the first pause is not elected. -/
theorem reads_keep_schedule_threeReads :
    let settings := Settings.ahead
    let before := operate settings (empty settings fun _ => [])
      writtenBefore
    let draft : Draft NameTag := ⟨"a", some ⟨"a", ["x"]⟩, ["x"]⟩
    let names : Fin 3 → String := fun reader =>
      if reader = 1 then "x" else "a"
    settings.Valid ∧ settings.timeToLive ≤ Duration.longest ∧
      settings.refresh = some ⟨10, 20, 5⟩ ∧
      ¬ before.Drops settings draft.key ∧
        Ends (writeDraft settings draft) before
          (fun _ after => ∃ shard current,
            after.shards[before.route "a"]? = some shard ∧
              (let race := (Race.start shard).follow (some ⟨10, 20, 5⟩) names
                (threeReads 0 1 2)
              race.shard.entries["a"]? = some current ∧
                current.refreshAt = some 28 ∧ current.retries = 2 ∧
                ∃ lookup, race.readers 0 = .answered lookup ∧
                  lookup.refreshes = false))
          (fun _ _ => False) := by
  intro settings before draft names
  have valid : settings.Valid := by decide
  have expressible : settings.timeToLive ≤ Duration.longest := by decide
  have kept : ¬ before.Drops settings draft.key := by decide +kernel
  have answered : answer (writeDraft settings draft) before = .ok false := by
    decide +kernel
  have course : ∀ shard ∈ (final (writeDraft settings draft)
      before).shards[before.route "a"]?,
      (∀ reader, shard.primary (names reader) = "a") ∧
        Race.elections ⟨10, 20, 5⟩ names (Race.start shard)
            ((threeReads 0 1 2).take 3) = [12] ∧
          Race.elections ⟨10, 20, 5⟩ names (Race.start shard)
              (threeReads 0 1 2) =
            [12, 18] := by
    decide +kernel
  have undisturbed : ∀ shard : Shard NameTag,
      Race.Undisturbed ⟨10, 20, 5⟩ names "a" (Race.start shard)
        (threeReads 0 1 2) := fun shard => by
    simp [Race.Undisturbed, Race.Spares, threeReads]
  refine ⟨valid, expressible, rfl, kept, ?_⟩
  dsimp only [before] at kept answered course ⊢
  generalize writtenBefore = operations at kept answered course ⊢
  have stated := (reads_keep_schedule valid expressible rfl (fun _ => [])
    operations draft kept).1
  rw [ends_iff_answer, answered] at stated ⊢
  dsimp only at stated ⊢
  obtain ⟨now, shard, entry, pause, _, seat, _, _, _, _, _, _, races⟩ := stated
  obtain ⟨led, first, both⟩ := course shard seat
  have keeps := races 3 names (Race.start shard) (threeReads 0 1 2) rfl led
    (undisturbed shard)
  obtain ⟨current, stored, _, retries, _, set⟩ :=
    keeps.puts_off (threeReads 0 1 2) [] rfl
  obtain ⟨meanwhile, there, _, _, _, pause⟩ :=
    keeps.puts_off ((threeReads 0 1 2).take 3) ((threeReads 0 1 2).drop 3) rfl
  obtain ⟨_, found, lookup, _, alsoThere, told, elects⟩ :=
    keeps.elects 0 [] [.glance 1 15, .elect 1 12] [.glance 2 30, .elect 2 18]
      20 17 rfl rfl (by simp) (by simp [Race.Part.reader?])
  cases there.symm.trans alsoThere
  refine ⟨shard, current, seat, stored, ?_, ?_, lookup, told, ?_⟩
  · rw [set [12] 18 both]
    decide +kernel
  · rw [retries, both]
    rfl
  · rw [Bool.eq_false_iff, ne_eq, elects]
    rintro ⟨_, _, due, refresh, late⟩
    rw [pause [] 12 first] at refresh
    cases refresh
    revert late
    decide +kernel

end Cache

end ReadThrough
