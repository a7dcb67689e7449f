import ReadThrough.Proofs.Cache.Places
import ReadThrough.Proofs.Scheduler.Incidents

/-!
# Reading back a fetched item

A fetched item is written under the key that it knows, and the name that it was
fetched under becomes one of its aliases.  `item_read_back` says what both names
read afterwards.  The requested name is hidden when the shard of the item's key
stores an entry under that name; the entry may have expired long ago, or record
that there was nothing to store.
-/

namespace ReadThrough

variable {Value : Type}

/-- An errand ends a fetch for one name, whether somebody waits for it or
not. -/
inductive Errand.Serves (call : SingleCall Value) : Errand Value → Prop
  | waited (flight : FlightId) : Serves call (.complete flight call)
  | unwaited : Serves call (.refresh call)

/-- What is written of an item that was fetched under a name. -/
def Draft.ofItem [Keyed Value] (name : String) (item : Value) : Draft Value :=
  ⟨Keyed.key item, some item, Cache.aliasesWith name item⟩

/-- The names that an item is to be found under are its own and the one that was
requested. -/
theorem Draft.mem_names_ofItem_iff [Keyed Value]
    {name requested : String} {item : Value} :
    name ∈ (Draft.ofItem requested item).names ↔
      name = Keyed.key item ∨ name ∈ Keyed.aliases item ∨
        name = requested := by
  rw [Draft.names, Draft.ofItem, Cache.aliasesWith, List.mem_cons]
  split
  next known =>
    constructor
    · rintro (own | listed)
      · exact Or.inl own
      · exact Or.inr (Or.inl listed)
    · rintro (own | listed | rfl)
      · exact Or.inl own
      · exact Or.inr listed
      · exact known
  next => simp

theorem Draft.mem_names_ofItem [Keyed Value] (name : String) (item : Value) :
    name ∈ (Draft.ofItem name item).names :=
  mem_names_ofItem_iff.mpr (Or.inr (Or.inr rfl))

namespace Cache

/-- An entry of its own hides a name that a write asks for as an alias of a key:
the shard of the key stores it, and the write does not have to evict it. -/
def Hides
    (settings : Settings) (cache : Cache Value) (key name : String) : Prop :=
  name ≠ key ∧ cache.Stores (cache.route key) name ∧
    ¬ cache.Evicts settings key (cache.route key, name)

instance (settings : Settings) (cache : Cache Value) (key name : String) :
    Decidable (cache.Hides settings key name) :=
  inferInstanceAs (Decidable (_ ∧ _))

section Written

variable {settings : Settings} {draft : Draft Value} {now : Instant}
  {before after : Cache Value}
  (written : Written settings draft now before after)

include written

/-- A write routes all its names to one shard. -/
theorem Written.route_eq {name : String} (member : name ∈ draft.names) :
    after.route name = before.route draft.key := by
  rw [← place_fst]
  by_cases own : name = draft.key
  · rw [own, written.key]
  · have asked : name ∈ draft.aliases :=
      (List.mem_cons.mp member).resolve_left own
    rw [written.asked name asked own]
    split
    · rfl
    · rfl

/-- Right after a write, all its names that are not hidden read back what was
written. -/
theorem Written.reads
    (coherent : after.Coherent) (again : after.clock.read.1 = .ok now)
    {name : String} (member : name ∈ draft.names)
    (visible : ¬ before.Hides settings draft.key name) :
    Reads settings after name (some draft.value) := by
  have leads : after.place name = (before.route draft.key, draft.key) := by
    by_cases own : name = draft.key
    · rw [own, written.key]
    · have asked : name ∈ draft.aliases :=
        (List.mem_cons.mp member).resolve_left own
      rw [written.asked name asked own]
      exact if_neg fun stays => visible ⟨own, stays⟩
  have reads := reads_place settings coherent
    (written.fresh again name leads)
  rwa [leads, written.own,
    if_neg (Nat.not_lt.mpr (le_deadline now _))] at reads

/-- A hidden name reads what the entry that hides it shows. -/
theorem Written.reads_of_hides
    (coherent : after.Coherent) {name : String}
    (member : name ∈ draft.names)
    (hides : before.Hides settings draft.key name)
    {instant : Instant} (decided : after.deciding name = .ok instant) :
    Reads settings after name
      (before.shown (before.route draft.key, name) instant) := by
  obtain ⟨apart, stays⟩ := hides
  have asked : name ∈ draft.aliases :=
    (List.mem_cons.mp member).resolve_left apart
  have reads := reads_place settings coherent decided
  rwa [written.asked name asked apart, if_pos stays, written.others _
    (fun same => apart (congrArg Prod.snd same)), if_neg stays.2] at reads

end Written

end Cache

namespace Errand

open Cache (Written)

variable [Keyed Value] {settings : Settings} {before : Cache Value}
  {errand : Errand Value} {call : SingleCall Value} {item : Value}

/-- An errand that has an item to store by its own key moves the clock of the
cache and writes the item. -/
theorem Serves.leaves_of_writes
    (serves : errand.Serves call) (own : call.storing = .byOwnKey)
    (fetched : call.plan.ending = .returns item)
    {reply : Except Failure (Reply Value)}
    (returned : errand.verdict settings before = .returned reply)
    (accepts : Cache Value → Prop)
    (writes : ∀ clock,
      before.clock.advance call.plan.advance = .ok clock →
        Cache.Ends (Cache.writeDraft settings (.ofItem call.name item))
          (before.withClock clock) (fun _ after => accepts after)
          (fun _ _ => True)) :
    accepts (errand.leaves settings before) := by
  have ends : Cache.Ends (errand.operation.action settings) before
      (fun _ after => accepts after) (fun _ _ => True) := by
    cases serves with
    | waited flight =>
        rw [operation, Operation.action, Cache.ends_discard,
          Cache.concludeFlight, Cache.ends_play, fetched, own]
        split
        · trivial
        next clock moved =>
          exact Cache.ends_bind.mpr (Cache.ends_discard.mpr
            (writes clock moved))
    | unwaited =>
        rw [operation, Operation.action, Cache.concludeRefresh,
          Cache.ends_play, fetched, own]
        split
        · trivial
        next clock moved =>
          exact Cache.ends_discard.mpr (writes clock moved)
  exact leaves_of_returned returned ends

/-- What the errand leaves is what this write leaves, which returns. -/
theorem Serves.leaves_eq
    (serves : errand.Serves call) (own : call.storing = .byOwnKey)
    (fetched : call.plan.ending = .returns item)
    {reply : Except Failure (Reply Value)}
    (returned : errand.verdict settings before = .returned reply) :
    ∃ clock, before.clock.advance call.plan.advance = .ok clock ∧
      Cache.returns (Cache.writeDraft settings (.ofItem call.name item))
        (before.withClock clock) ∧
      errand.leaves settings before =
        Cache.final (Cache.writeDraft settings (.ofItem call.name item))
          (before.withClock clock) := by
  refine serves.leaves_of_writes own fetched returned
    (fun left => ∃ clock,
      before.clock.advance call.plan.advance = .ok clock ∧
        Cache.returns (Cache.writeDraft settings (.ofItem call.name item))
          (before.withClock clock) ∧
        left = Cache.final
          (Cache.writeDraft settings (.ofItem call.name item))
          (before.withClock clock)) ?_
  intro clock moved
  rw [Cache.ends_iff_answer]
  cases answered : Cache.answer
      (Cache.writeDraft settings (.ofItem call.name item))
      (before.withClock clock) with
  | error fault => trivial
  | ok evicted =>
      refine ⟨clock, moved, ?_, rfl⟩
      rw [Cache.returns, answered]
      rfl

/-- An errand that has an item to store by its own key writes it, once the clock
of the cache has moved. -/
theorem Serves.written
    (serves : errand.Serves call) (own : call.storing = .byOwnKey)
    (fetched : call.plan.ending = .returns item)
    (coherent : before.Coherent) {reply : Except Failure (Reply Value)}
    (returned : errand.verdict settings before = .returned reply)
    (kept : ¬ before.Drops settings (Keyed.key item)) :
    ∃ clock now, before.clock.advance call.plan.advance = .ok clock ∧
      Written settings (.ofItem call.name item) now (before.withClock clock)
        (errand.leaves settings before) := by
  obtain ⟨clock, moved, wrote, left⟩ :=
    serves.leaves_eq own fetched returned
  have moving : (before.withClock clock).Coherent := coherent.of_eq rfl rfl
  obtain ⟨now, written⟩ := Cache.final_of_returns wrote
    (Cache.ends_writeDraft_written moving _ kept)
  refine ⟨clock, now, moved, ?_⟩
  rw [left]
  exact written

end Errand

namespace Logbook

variable [Keyed Value]

/-- Whatever has happened to a new cache: when an item that was fetched under a
name is stored by its own key, and the write is not dropped, all names of the
item are routed to one shard.  At the reading that the write took, every one of
them reads back the item, the requested one among them, unless it is hidden;
then it reads what the entry that hides it shows. -/
theorem item_read_back
    {settings : Settings} (valid : settings.Valid)
    (paddings : Nat → List Nat) (incidents : List (Incident Value))
    {errand : Errand Value} {call : SingleCall Value}
    (serves : errand.Serves call) (own : call.storing = .byOwnKey)
    {item : Value} (fetched : call.plan.ending = .returns item)
    {reply : Except Failure (Reply Value)}
    (returned : errand.verdict settings
      (undergoAll settings (start settings paddings)
        incidents).scheduler.cache = .returned reply)
    (kept : ¬ (undergoAll settings (start settings paddings)
      incidents).scheduler.cache.Drops settings (Keyed.key item)) :
    let before := (undergoAll settings (start settings paddings)
      incidents).scheduler.cache
    let after := errand.leaves settings before
    let draft := Draft.ofItem call.name item
    call.name ∈ draft.names ∧ Keyed.key item ∈ draft.names ∧
      (∀ name ∈ draft.names, after.route name = before.route draft.key) ∧
        ∃ clock now, before.clock.advance call.plan.advance = .ok clock ∧
          clock.read = (.ok now, after.clock) ∧
            ∀ name ∈ draft.names,
              (¬ before.Hides settings draft.key name →
                after.clock.read.1 = .ok now →
                  Cache.Reads settings after name (some (some item))) ∧
              (before.Hides settings draft.key name →
                ∀ instant, after.deciding name = .ok instant →
                  Cache.Reads settings after name
                    (before.shown (before.route draft.key, name)
                      instant)) := by
  intro before after draft
  have new : (Cache.empty settings paddings : Cache Value).Coherent :=
    Cache.coherent_empty valid paddings
  have coherent : before.Coherent :=
    coherent_undergoAll new settings incidents
  obtain ⟨clock, now, moved, written⟩ :=
    serves.written own fetched coherent returned kept
  have later := errand.coherent_leaves settings coherent
  refine ⟨Draft.mem_names_ofItem call.name item, List.mem_cons_self,
    fun name member => written.route_eq member,
    clock, now, moved, written.reading, fun name member => ⟨?_, ?_⟩⟩
  · intro visible again
    exact written.reads later again member visible
  · intro hides instant decided
    exact written.reads_of_hides later member hides decided

/-- A value that has expired and has not been removed. -/
def outdated : List (Incident NameTag) :=
  [.operation (.act (.write ⟨"a", some ⟨"a", []⟩, []⟩)),
    .operation (.act (.quiet (.advance 2000)))]

/-- A call of the name of that value that fetches an item with another key. -/
def itemCall (key : String) : SingleCall NameTag :=
  ⟨"a", .byOwnKey, ⟨0, 0, .returns ⟨key, []⟩⟩⟩

/-- An expired value hides its name on its own shard only. -/
theorem item_read_back_outdated :
    Settings.twoShards.Valid ∧
      (let before := (undergoAll Settings.twoShards
        (start Settings.twoShards fun _ => []) outdated).scheduler.cache
      let after := (Errand.complete 0 (itemCall "d")).leaves
        Settings.twoShards before
      before.Stores 1 "a" ∧
        Cache.Reads Settings.twoShards after "a"
          (some (some ⟨"d", []⟩))) := by
  have valid : Settings.twoShards.Valid := by decide
  refine ⟨valid, ?_⟩
  intro before after
  obtain ⟨reply, returned⟩ : ∃ reply, (Errand.complete 0 (itemCall
      "d")).verdict Settings.twoShards before = .returned reply :=
    Errand.returned_of_returns (by decide +kernel)
  obtain ⟨_, _, _, clock, now, moved, reading, reads⟩ :=
    item_read_back valid (fun _ => []) outdated (.waited 0) rfl rfl returned
      (by decide +kernel)
  have stands : before.clock.advance 0 =
      .ok { Clock.start .manual with elapsed := 2000 } := by decide +kernel
  cases moved.symm.trans stands
  obtain rfl : 2000 = now := Except.ok.inj (congrArg Prod.fst reading)
  exact ⟨by decide +kernel,
    (reads "a" (by decide)).1 (by decide +kernel) (by decide +kernel)⟩

/-- A call of a name whose value has expired fetches an item that belongs on the
same shard.  The call returns the item, and the item's key reads it back at the
same reading, but the requested name finds nothing. -/
theorem requested_name_hidden :
    Settings.twoShards.Valid ∧
      (let before := (undergoAll Settings.twoShards
        (start Settings.twoShards fun _ => []) outdated).scheduler
      let after := (undergoAll Settings.twoShards
        (start Settings.twoShards fun _ => [])
        (outdated ++ [.move (.call (itemCall "b")),
          .move (.turn 0)])).scheduler
      ¬ before.cache.Drops Settings.twoShards "b" ∧
        (after.verdict? 0).bind Verdict.value? = some ⟨"b", []⟩ ∧
          before.cache.clock = after.cache.clock ∧
            Cache.result? (Cache.lookup Settings.twoShards "b")
                after.cache = some (.found ⟨"b", []⟩ false) ∧
              Cache.result? (Cache.lookup Settings.twoShards "a")
                after.cache = some .absent) := by
  decide +kernel

end Logbook

end ReadThrough
