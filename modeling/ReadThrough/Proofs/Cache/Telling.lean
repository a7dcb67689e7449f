import ReadThrough.Proofs.Cache.Mirrors

/-!
# What each act tells

The deed of every act explains what the act did to a cache that mirrors its
history.  So a cache goes on mirroring its history along every run.
-/

namespace ReadThrough.Cache

open Std (ExtTreeMap)

variable {Value : Type}

section Acts

variable {settings : Settings} {before after : Cache Value}
  {history : List (Deed Value)}

theorem explains_of_alike (alike : Alike before after) :
    Explains settings history .nothing before after where
  size := alike.size
  routes found := Or.inl (by rwa [alike.routes] at found)
  arrivals {index shard key entry} seat found := by
    obtain ⟨old, oldSeat, similar⟩ := alike.symm.shards seat
    obtain ⟨earlier, inherits⟩ := inherits_of_alike similar.symm found
    exact Or.inr ⟨old, earlier, oldSeat, inherits, fun _ _ _ _ => id⟩
  departures {index shard key entry draft wroteAt} seat found records gone := by
    exact absurd (alike.stores_iff.mpr (stores_of_found seat found)) gone
  completed wrote := by cases wrote

/-- Removing entries is explained by a deed that revokes no others, and these
unless they had expired at a sweep. -/
theorem Reseats.explains_of_removes
    {index : Nat} {old other : Shard Value} {claimed : Cache Value}
    {keys : List String} {deed : Deed Value}
    (mirrors : Mirrors settings before history)
    (seat : before.shards[index]? = some old)
    (alike : (old.eraseAll keys).Alike other)
    (shards : claimed.shards = before.shards)
    (reseats : Reseats index other claimed after)
    (routes : ∀ {name : String} {place : Nat},
      claimed.routes[name]? = some place →
        before.routes[name]? = some place ∨
          ∃ draft completed evicted, deed = .wrote draft completed evicted ∧
            name ∈ draft.aliases ∧ name ≠ draft.key)
    (incomplete : ∀ draft wroteAt evicted,
      deed ≠ .wrote draft (some wroteAt) evicted)
    (revokedOnly : ∀ {place : Nat} {shard : Shard Value} {key : String}
      {entry : Entry Value} {draft : Draft Value} {wroteAt : Instant},
      before.shards[place]? = some shard →
        shard.entries[key]? = some entry →
          Stands history draft wroteAt →
            Records settings shard key entry draft wroteAt →
              deed.Revokes draft → place = index ∧ key ∈ keys)
    (revoked : ∀ {key : String} {entry : Entry Value} {draft : Draft Value}
      {wroteAt : Instant}, old.entries[key]? = some entry →
        Records settings old key entry draft wroteAt → key ∈ keys →
          deed.Revokes draft ∨ ∃ instant, deed = .swept instant ∧
            deadline wroteAt settings.timeToLive < instant) :
    Explains settings history deed before after where
  size := by rw [reseats.size, shards]
  routes found := by
    rw [reseats.routes] at found
    exact routes found
  arrivals {place shard key entry} placeSeat found := by
    apply Or.inr
    rw [reseats.shards_eq, shards] at placeSeat
    split at placeSeat
    next same =>
      cases placeSeat
      obtain ⟨kept, earlier, inherits⟩ :=
        inherits_of_removes (mirrors.coherent.shards seat) alike found
      refine ⟨old, earlier, by rw [same, seat], inherits, ?_⟩
      intro draft wroteAt stands records revokes
      exact kept (revokedOnly seat inherits.found stands records revokes).2
    next apart =>
      refine ⟨shard, entry, placeSeat, .refl found, ?_⟩
      intro draft wroteAt stands records revokes
      exact apart (revokedOnly placeSeat found stands records revokes).1
  departures {place shard key entry draft wroteAt} placeSeat found records
      gone := by
    have stored := Shard.stored_of_found found
    by_cases same : place = index
    · subst same
      rw [seat] at placeSeat
      cases placeSeat
      apply revoked found records
      by_contra kept
      refine gone ((stores_iff_of_seat reseats.seat).mpr ?_)
      rw [alike.mem_entries, Shard.mem_entries_eraseAll]
      exact ⟨stored, kept⟩
    · rw [← shards] at placeSeat
      exact absurd ⟨shard, (reseats.others same).trans placeSeat, stored⟩
        gone
  completed wrote := absurd wrote (incomplete _ _ _)

/-- A deletion removes what the name leads to, and that is the recorded draft
that has the name. -/
theorem explains_delete
    (mirrors : Mirrors settings before history) (apart : NamesApart history)
    {old : Shard Value} {name : String}
    (seat : before.shards[before.route name]? = some old)
    (reseats : Reseats (before.route name) (old.delete name).2 before
      after) :
    Explains settings history (.deleted name) before after := by
  have removed : (old.eraseAll [old.primary name]).Alike
      (old.delete name).2 := .refl _
  refine reseats.explains_of_removes mirrors seat removed rfl Or.inl ?_ ?_ ?_
  · intro draft wroteAt evicted wrote
    cases wrote
  · intro place shard key entry draft wroteAt placeSeat found stands records
      member
    obtain ⟨routed, leads⟩ :=
      mirrors.leads apart placeSeat found stands records member
    subst routed
    rw [seat] at placeSeat
    cases placeSeat
    exact ⟨rfl, by simp [leads]⟩
  · intro key entry draft wroteAt found records removed
    have leads : old.primary name = key := (List.mem_singleton.mp removed).symm
    exact Or.inl (records.mem_names leads)

theorem explains_sweep
    (mirrors : Mirrors settings before history)
    {index : Nat} {old : Shard Value} {now : Instant}
    (seat : before.shards[index]? = some old)
    (reseats : Reseats index (old.eraseAll (old.expiredKeys now)) before
      after) :
    Explains settings history (.swept now) before after := by
  refine reseats.explains_of_removes mirrors seat (.refl _) rfl Or.inl
    ?_ ?_ ?_
  · intro draft wroteAt evicted wrote
    cases wrote
  · intro place shard key entry draft wroteAt _ _ _ _ revokes
    exact revokes.elim
  · intro key entry draft wroteAt found records removed
    obtain ⟨stored, expired, keyIs⟩ := List.mem_map.mp removed
    obtain ⟨member, past⟩ := List.mem_filter.mp expired
    have storedFound :=
      ExtTreeMap.mem_toList_iff_getElem?_eq_some.mp member
    have sameKey := (mirrors.coherent.shards seat).keyed storedFound
    rw [← sameKey, keyIs, found] at storedFound
    have sameEntry : entry = stored.2 := Option.some.inj storedFound
    refine Or.inr ⟨now, rfl, ?_⟩
    rw [← records.expiresAt, sameEntry]
    simpa [Entry.isExpired] using past

/-- A write whose aliases were registered, and which evicted entries at most, is
explained as one that did not complete. -/
theorem explains_of_incomplete
    (mirrors : Mirrors settings before history)
    {draft : Draft Value} {index : Nat} {old other : Shard Value}
    {claimed : Cache Value} {keys : List String}
    (seat : before.shards[index]? = some old)
    (listed : ∀ key ∈ keys, key ∈ old.entries)
    (registers : Registers draft.key index draft.aliases
      (before.noted (.routed (before.route draft.key))) claimed)
    (alike : (old.eraseAll keys).Alike other)
    (reseats : Reseats index other claimed after) :
    Explains settings history (.wrote draft none keys) before after := by
  refine reseats.explains_of_removes mirrors seat alike registers.shards
    ?_ ?_ ?_ ?_
  · intro name place found
    rcases registers.asked found with earlier | asked
    · exact Or.inl earlier
    · exact Or.inr ⟨draft, none, keys, rfl, asked⟩
  · intro other wroteAt evicted wrote
    cases wrote
  · intro place shard key entry other wroteAt placeSeat found _ records
      revokes
    have evicted : key ∈ keys := by
      rcases revokes with ⟨completed, _⟩ | evicted
      · cases completed
      · rwa [records.keyed] at evicted
    have here : before.Stores index key :=
      (stores_iff_of_seat seat).mpr (listed key evicted)
    have there : before.Stores place key := stores_of_found placeSeat found
    rw [← mirrors.route_of_stores there, mirrors.route_of_stores here]
    exact ⟨rfl, evicted⟩
  · intro key entry other wroteAt _ records evicted
    rw [← records.keyed] at evicted
    exact Or.inl (Or.inr evicted)

theorem explains_of_stored
    (mirrors : Mirrors settings before history)
    {draft : Draft Value} {old roomy : Shard Value}
    {claimed : Cache Value} {keys : List String} {now : Instant}
    {refreshAt : Option Instant}
    (seat : before.shards[before.route draft.key]? = some old)
    (listed : ∀ key ∈ keys, key ∈ old.entries)
    (claims : Claims draft.key (before.route draft.key) old draft.aliases
      (before.noted (.routed (before.route draft.key))) claimed)
    (alike : (old.eraseAll keys).Alike roomy)
    (reseats : Reseats (before.route draft.key)
      (roomy.upsert (.fresh draft.key draft.value
        (deadline now settings.timeToLive) refreshAt) draft.aliases)
      claimed after) :
    Explains settings history (.wrote draft (some now) keys) before
      after := by
  have oldCoherent := mirrors.coherent.shards seat
  have roomyCoherent := alike.coherent (oldCoherent.eraseAll keys)
  have shards : claimed.shards = before.shards := claims.shards
  generalize entryIs : Entry.fresh draft.key draft.value
    (deadline now settings.timeToLive) refreshAt = entry at reseats
  have keyed : entry.key = draft.key := by rw [← entryIs]; rfl
  have value : entry.value = draft.value := by rw [← entryIs]; rfl
  have expiresAt :
      entry.expiresAt = deadline now settings.timeToLive := by
    rw [← entryIs]; rfl
  refine ⟨?_, ?_, ?_, ?_, ?_⟩
  · rw [reseats.size, shards]
  · intro name place found
    rw [reseats.routes] at found
    rcases claims.asked found with earlier | asked
    · exact Or.inl earlier
    · exact Or.inr ⟨draft, some now, keys, rfl, asked⟩
  · intro place shard key found placeSeat stored
    rw [reseats.shards_eq, shards] at placeSeat
    split at placeSeat
    next same =>
      cases placeSeat
      by_cases own : key = draft.key
      · -- What is stored under the key of the draft is the new entry.
        rw [own, ← keyed, Shard.entries_upsert,
          ExtTreeMap.getElem?_insert_self] at stored
        cases stored
        rw [own]
        refine Or.inl ⟨draft, now, keys, rfl, same.symm, ?_⟩
        exact records_of_upsert roomyCoherent keyed value expiresAt
      · obtain ⟨kept, earlier, inherits⟩ :=
          inherits_of_written oldCoherent alike keyed claims.free own stored
        refine Or.inr ⟨old, earlier, by rw [same, seat], inherits, ?_⟩
        intro other otherAt _ records revokes
        rcases revokes with ⟨_, sameKey⟩ | evicted
        · exact own (records.keyed.symm.trans sameKey.symm)
        · rw [records.keyed] at evicted
          exact kept evicted
    next apart =>
      refine Or.inr ⟨shard, found, placeSeat, .refl stored, ?_⟩
      intro other otherAt _ records revokes
      have home := mirrors.route_of_stores
        (stores_of_found placeSeat stored)
      rcases revokes with ⟨_, sameKey⟩ | evicted
      · rw [← records.keyed, ← sameKey] at home
        exact apart home.symm
      · rw [records.keyed] at evicted
        have here := mirrors.route_of_stores
          ((stores_iff_of_seat seat).mpr (listed key evicted))
        exact apart (home.symm.trans here)
  · intro place shard key found other otherAt placeSeat stored records gone
    apply Or.inl
    apply Or.inr
    rw [records.keyed]
    by_cases same : place = before.route draft.key
    · by_contra unlisted
      rw [same] at placeSeat gone
      rw [seat] at placeSeat
      cases placeSeat
      refine gone ((stores_iff_of_seat reseats.seat).mpr ?_)
      rw [Shard.entries_upsert, ExtTreeMap.mem_insert, alike.mem_entries,
        Shard.mem_entries_eraseAll]
      exact Or.inr ⟨Shard.stored_of_found stored, unlisted⟩
    · rw [← shards] at placeSeat
      have still := (reseats.others same).trans placeSeat
      exact absurd (stores_of_found still stored) gone
  · intro other otherAt evicted wrote
    cases wrote
    exact stores_of_claims claims reseats keyed

/-- The deed of a write explains it, however the write ended. -/
theorem explains_write
    (mirrors : Mirrors settings before history) (draft : Draft Value) :
    Explains settings history (deed settings before (.write draft)) before
      (Cache.after settings before (.write draft)) := by
  obtain ⟨old, seat⟩ := mirrors.coherent.seat draft.key
  have left : Cache.after settings before (.write draft) =
      final (writeDraft settings draft) before := final_discard _ _
  have whole : Ends (writeDraft settings draft) before
      (fun evicted => WriteOutcome settings draft.key draft.value
        draft.aliases old before (.ok evicted))
      (fun fault => WriteOutcome settings draft.key draft.value
        draft.aliases old before (.error fault)) := ends_write seat
  have unchanged : ∀ {claimed : Cache Value},
      Registers draft.key (before.route draft.key) draft.aliases
        (before.noted (.routed (before.route draft.key))) claimed →
      Explains settings history (.wrote draft none []) before claimed := by
    intro claimed registers
    have seated : Reseats (before.route draft.key) old claimed claimed := by
      refine Reseats.of_eq ?_ rfl rfl
      rw [registers.shards, shards_noted, seat]
    exact explains_of_incomplete mirrors seat (by simp) registers
      (Shard.Alike.refl (old.eraseAll [])) seated
  have listed : ∀ key ∈ old.evictees settings.evictionPercentage draft.key,
      key ∈ old.entries := fun _ =>
    Shard.mem_entries_of_mem_evictees (mirrors.coherent.shards seat)
  rw [Ends] at whole
  simp only [deed, completedAt, evictedFor, left, result?, final, seat]
  cases run : (writeDraft settings draft).run before with
  | error fault next =>
      rw [run] at whole
      cases whole with
      | conflict clash registers =>
          simp only [if_pos clash]
          exact unchanged registers
      | broken room harmless claims alike reseats =>
          simp only [if_neg harmless]
          exact explains_of_incomplete mirrors seat listed
            claims.toRegisters alike reseats
  | ok evicted next =>
      rw [run] at whole
      cases whole with
      | dropped refuses claims =>
          have drops := (drops_iff_of_seat seat).mpr refuses
          simp only [if_pos drops]
          cases before.clock.read.1 with
          | error fault => exact unchanged claims.toRegisters
          | ok now => exact unchanged claims.toRegisters
      | stored room claims reading refreshTime alike reseats =>
          have kept := mt (drops_iff_of_seat seat).mp room
          simp only [reading, if_neg kept]
          exact explains_of_stored mirrors seat listed claims alike reseats

theorem explains_deed
    (mirrors : Mirrors settings before history) (apart : NamesApart history)
    (act : Act Value) :
    Explains settings history (deed settings before act) before
      (Cache.after settings before act) := by
  cases act with
  | quiet silent =>
      exact explains_of_alike
        (respects_final (respects_quiet_alike settings silent) before)
  | write draft => exact explains_write mirrors draft
  | delete name =>
      obtain ⟨old, seat⟩ := mirrors.coherent.seat name
      refine ends_iff_final.mp (ends_discard.mpr ?_)
      refine (ends_delete seat).weaken ?_ fun _ _ => False.elim
      intro existed next ⟨_, _, reseats⟩
      exact explains_delete mirrors apart seat reseats
  | sweep index =>
      have left : Cache.after settings before (.sweep index) =
          final (sweep index) before := final_discard _ _
      simp only [deed, left, result?, final]
      cases seat : before.shards[index]? with
      | none =>
          have whole := ends_sweep_of_no_seat seat
          rw [Ends] at whole
          cases run : (sweep index).run before with
          | ok count next =>
              rw [run] at whole
              exact whole.elim
          | error fault next =>
              rw [run] at whole
              obtain ⟨_, rfl⟩ := whole
              exact explains_of_alike (Alike.refl _)
      | some old =>
          have whole := ends_sweep seat
          rw [Ends] at whole
          cases run : (sweep index).run before with
          | ok count next =>
              rw [run] at whole
              obtain ⟨now, reading, _, reseats⟩ := whole
              simp only [reading]
              exact explains_sweep mirrors seat reseats
          | error fault next =>
              rw [run] at whole
              exact explains_of_alike whole.2

end Acts

/-! ## Whole runs -/

section Runs

variable {settings : Settings} {cache : Cache Value}
  {history : List (Deed Value)}

theorem mirrors_empty
    (valid : settings.Valid) (paddings : Nat → List Nat) :
    Mirrors settings (empty settings paddings : Cache Value) [] where
  coherent := coherent_empty valid paddings
  asked name place found := by simp [empty] at found
  stored {index shard key entry} seat found :=
    absurd (stores_of_found seat found)
      (not_stores_empty settings paddings index key)
  kept stands := by cases stands.mem

theorem Mirrors.follow
    (mirrors : Mirrors settings cache history) (acts : List (Act Value))
    (apart : NamesApart (history ++ chronicle settings cache acts)) :
    Mirrors settings (Cache.follow settings cache acts)
      (history ++ chronicle settings cache acts) := by
  induction acts generalizing cache history with
  | nil => simpa [chronicle] using mirrors
  | cons act acts inductionHypothesis =>
      rw [chronicle, List.append_cons] at apart ⊢
      have here : NamesApart (history ++ [deed settings cache act]) :=
        apart.of_append
      have next := mirrors.extend here
        (mirrors.coherent.after settings act)
        (explains_deed mirrors here.of_append act)
      exact inductionHypothesis next apart

end Runs

end ReadThrough.Cache
