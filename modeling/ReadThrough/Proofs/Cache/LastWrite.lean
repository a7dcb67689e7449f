import ReadThrough.Proofs.Cache.Telling

/-!
# Reading the last live write

A lookup in a cache that mirrors its history finds exactly the standing write
with its name that is still alive.  Neither the sweeps nor the shards show in
that.
-/

namespace ReadThrough.Cache

open Std (ExtTreeMap)

variable {Value : Type}

section Lookups

variable {settings : Settings} {cache : Cache Value}
  {history : List (Deed Value)}

/-- The entry that a name leads to records a standing write with that name. -/
theorem Mirrors.of_seen
    (mirrors : Mirrors settings cache history)
    {name : String} {shard : Shard Value} {now : Instant}
    {value : Option Value}
    (seat : cache.shards[cache.route name]? = some shard)
    (seen : shard.seen name now = some value) :
    ∃ draft wroteAt, Stands history draft wroteAt ∧ name ∈ draft.names ∧
      draft.value = value ∧ now ≤ deadline wroteAt settings.timeToLive ∧
        shard.primary name = draft.key := by
  rw [Shard.seen, Shard.resolve, Option.bind_eq_some_iff] at seen
  obtain ⟨entry, found, shown⟩ := seen
  obtain ⟨live, sameValue⟩ := Entry.shown_eq_some_iff.mp shown
  obtain ⟨_, draft, wroteAt, stands, records⟩ := mirrors.stored seat found
  refine ⟨draft, wroteAt, stands, records.mem_names rfl, ?_, ?_,
    records.keyed.symm⟩
  · rw [← records.value, sameValue]
  · rwa [← records.expiresAt]

/-- A standing write that is alive is seen under each of its names. -/
theorem Mirrors.seen
    (mirrors : Mirrors settings cache history) (apart : NamesApart history)
    {name : String} {shard : Shard Value} {now : Instant}
    {draft : Draft Value} {wroteAt : Instant}
    (sweeps : ∀ instant ∈ sweepTimes history, instant ≤ now)
    (seat : cache.shards[cache.route name]? = some shard)
    (stands : Stands history draft wroteAt) (member : name ∈ draft.names)
    (live : now ≤ deadline wroteAt settings.timeToLive) :
    shard.primary name = draft.key ∧
      shard.seen name now = some draft.value := by
  rcases mirrors.kept stands with ⟨home, homeSeat, stored⟩ |
    ⟨instant, swept, late⟩
  · have found := ExtTreeMap.getElem?_eq_some_getElem stored
    obtain ⟨_, other, otherAt, otherStands, records⟩ :=
      mirrors.stored homeSeat found
    obtain ⟨rfl, rfl⟩ := otherStands.unique stands records.keyed
    obtain ⟨routed, leads⟩ :=
      mirrors.leads apart homeSeat found stands records member
    rw [routed, homeSeat] at seat
    cases seat
    refine ⟨leads, ?_⟩
    rw [Shard.seen, Shard.resolve, leads, found, Option.bind_some,
      Entry.shown_eq_some_iff, records.expiresAt]
    exact ⟨live, records.value⟩
  · have early := sweeps instant swept
    exact absurd (Nat.lt_of_lt_of_le late early) (Nat.not_lt.mpr live)

end Lookups

/-- In a run in which no name is both the key of a write and an alias of another
key, and no sweep comes from later than the lookup, a name finds a value or a
missing record exactly when a write with that name stands that wrote it and is
still alive; the key of that write is unique. -/
theorem lookup_eq_last_write
    {settings : Settings} (valid : settings.Valid)
    (paddings : Nat → List Nat) (acts : List (Act Value))
    (apart : NamesApart
      (chronicle settings (empty settings paddings) acts))
    {name : String} {now : Instant}
    (decided : (follow settings (empty settings paddings) acts).deciding
      name = .ok now)
    (sweeps : ∀ instant ∈ sweepTimes
      (chronicle settings (empty settings paddings) acts), instant ≤ now) :
    Ends (lookup settings name)
        (follow settings (empty settings paddings) acts)
        (fun found _ => ∀ value, found.content = some value ↔
          ∃ draft wroteAt,
            Stands (chronicle settings (empty settings paddings) acts) draft
                wroteAt ∧
              name ∈ draft.names ∧ draft.value = value ∧
                now ≤ deadline wroteAt settings.timeToLive)
        (fun _ _ => False) ∧
      ∀ first second firstAt secondAt,
        Stands (chronicle settings (empty settings paddings) acts) first
            firstAt →
          Stands (chronicle settings (empty settings paddings) acts) second
              secondAt →
            name ∈ first.names → name ∈ second.names →
              now ≤ deadline firstAt settings.timeToLive →
                now ≤ deadline secondAt settings.timeToLive →
                  first.key = second.key := by
  have mirrors : Mirrors settings
      (follow settings (empty settings paddings) acts)
      (chronicle settings (empty settings paddings) acts) :=
    (mirrors_empty valid paddings).follow acts apart
  obtain ⟨shard, seat⟩ := mirrors.coherent.seat name
  constructor
  · refine (ends_lookup_of_deciding seat decided).weaken ?_ fun _ _ => id
    intro found _ content value
    rw [content]
    constructor
    · intro seen
      obtain ⟨draft, wroteAt, stands, member, sameValue, live, _⟩ :=
        mirrors.of_seen seat seen
      exact ⟨draft, wroteAt, stands, member, sameValue, live⟩
    · intro standing
      obtain ⟨draft, wroteAt, stands, member, rfl, live⟩ := standing
      exact (mirrors.seen apart sweeps seat stands member live).2
  · intro first second firstAt secondAt firstStands secondStands firstMember
      secondMember firstLive secondLive
    have firstLeads :=
      (mirrors.seen apart sweeps seat firstStands firstMember firstLive).1
    have secondLeads :=
      (mirrors.seen apart sweeps seat secondStands secondMember
        secondLive).1
    exact firstLeads.symm.trans secondLeads

/-- A key that is written again under another alias, after a sweep and the
deletion of a missing record. -/
def rewritten : List (Act Nat) :=
  [.write ⟨"d", some 2, ["a"]⟩, .write ⟨"b", none, []⟩,
    .quiet (.advance 500), .sweep 0, .delete "b",
    .write ⟨"d", some 3, ["c"]⟩]

theorem lookup_eq_last_write_rewritten :
    Settings.twoShards.Valid ∧
      Ends (lookup Settings.twoShards "c")
        (follow Settings.twoShards (empty Settings.twoShards fun _ => [])
          rewritten)
        (fun found _ => found.content = some (some 3))
        (fun _ _ => False) := by
  have valid : Settings.twoShards.Valid := by decide
  have apart : NamesApart (chronicle Settings.twoShards
      (empty Settings.twoShards fun _ => []) rewritten) := by
    decide +kernel
  have decided : (follow Settings.twoShards
      (empty Settings.twoShards fun _ => []) rewritten).deciding "c" =
        .ok 500 := by
    decide +kernel
  have sweeps : ∀ instant ∈ sweepTimes (chronicle Settings.twoShards
      (empty Settings.twoShards fun _ => []) rewritten), instant ≤ 500 := by
    decide +kernel
  have stands : Stands (chronicle Settings.twoShards
      (empty Settings.twoShards fun _ => []) rewritten)
        ⟨"d", some 3, ["c"]⟩ 500 := by
    refine ⟨[.wrote ⟨"d", some 2, ["a"]⟩ (some 0) [],
      .wrote ⟨"b", none, []⟩ (some 0) [], .nothing, .swept 500,
      .deleted "b"], [], [], ?_, by simp⟩
    decide +kernel
  have live : 500 ≤ deadline 500 Settings.twoShards.timeToLive :=
    le_deadline 500 _
  refine ⟨valid, ?_⟩
  generalize rewritten = acts at apart decided sweeps stands ⊢
  have stated :=
    lookup_eq_last_write valid (fun _ => []) acts apart decided sweeps
  refine stated.1.weaken ?_ fun _ _ => False.elim
  intro found _ exactly
  exact (exactly (some 3)).mpr ⟨_, 500, stands, by decide, rfl, live⟩

end ReadThrough.Cache
