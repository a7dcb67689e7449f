import ReadThrough.Proofs.Cache.Coherence

/-!
# Reading back what was written

Right after a write that was neither dropped nor broken off, the key and all
aliases are routed to one shard, and at the reading of the clock that the write
took they read back what was written.  There is one exception: an alias under
which that shard stores an entry of its own is `Shadowed` by it.  Such an entry
hides the written one even when its life is over, as long as nothing has removed
it.
-/

namespace ReadThrough

open Std (ExtTreeMap)

/-- The names that a draft is to be found under. -/
def Draft.names {Value : Type} (draft : Draft Value) : List String :=
  draft.key :: draft.aliases

/-- What a reader is to learn of a draft that has just been written. -/
def Draft.lookup {Value : Type} (draft : Draft Value) : Lookup Value :=
  match draft.value with
  | some value => .found value false
  | none => .missing false

namespace Cache

variable {Value : Type}

/-- The shard of a written key stores another entry under a name of the
draft. -/
def Shadowed (cache : Cache Value) (draft : Draft Value) (name : String) :
    Prop :=
  name ≠ draft.key ∧ cache.Stores (cache.route draft.key) name

instance (cache : Cache Value) (draft : Draft Value) (name : String) :
    Decidable (cache.Shadowed draft name) :=
  inferInstanceAs (Decidable
    (name ≠ draft.key ∧ cache.Stores (cache.route draft.key) name))

section Written

variable {settings : Settings} {before claimed next : Cache Value}
  {draft : Draft Value} {shard roomy : Shard Value} {entry : Entry Value}

theorem route_of_claims
    (claims : Claims draft.key (before.route draft.key) shard draft.aliases
      (before.noted (.routed (before.route draft.key))) claimed)
    (reseats : Reseats (before.route draft.key)
      (roomy.upsert entry draft.aliases) claimed next)
    {name : String} (member : name ∈ draft.names) :
    next.route name = before.route draft.key := by
  by_cases same : name = draft.key
  · have kept : claimed.route draft.key = before.route draft.key :=
      claims.route_key
    rw [same, ← kept]
    unfold route
    rw [reseats.routes, reseats.size]
  · have asked : name ∈ draft.aliases :=
      (List.mem_cons.mp member).resolve_left same
    apply route_of_registered
    rw [reseats.routes]
    exact claims.registered name asked same

theorem stores_of_claims
    (claims : Claims draft.key (before.route draft.key) shard draft.aliases
      (before.noted (.routed (before.route draft.key))) claimed)
    (reseats : Reseats (before.route draft.key)
      (roomy.upsert entry draft.aliases) claimed next)
    (keyed : entry.key = draft.key) :
    next.Stores (next.route draft.key) draft.key := by
  have home := route_of_claims claims reseats List.mem_cons_self
  rw [home, stores_iff_of_seat reseats.seat, Shard.entries_upsert, keyed]
  exact ExtTreeMap.mem_insert_self

/-- A name of a stored draft leads to its entry unless it is shadowed. -/
theorem resolve_upsert
    (coherent : roomy.Coherent) (keyed : entry.key = draft.key)
    {name : String} (member : name ∈ draft.names)
    (visible : name = draft.key ∨
      name ∉ (roomy.upsert entry draft.aliases).entries) :
    (roomy.upsert entry draft.aliases).resolve name = some entry := by
  have found : (roomy.upsert entry draft.aliases).entries[draft.key]? =
      some entry := by
    rw [Shard.entries_upsert, keyed, ExtTreeMap.getElem?_insert_self]
  by_cases same : name = draft.key
  · rw [same, Shard.resolve_of_stored (Shard.stored_of_found found),
      found]
  · have free := visible.resolve_left same
    have asked : name ∈ Shard.boundAliases entry.key draft.aliases := by
      rw [Shard.mem_boundAliases, keyed]
      exact ⟨(List.mem_cons.mp member).resolve_left same, same⟩
    have bound : (roomy.upsert entry draft.aliases).keyOfAlias[name]? =
        some draft.key := by
      rw [Shard.getElem?_keyOfAlias_upsert coherent, if_pos asked, keyed]
    rw [Shard.resolve_of_bound free bound, found]

/-- A visible name of a fresh entry reads back what was written, at the reading
that the write took. -/
theorem ends_lookup_of_visible
    {now : Instant} {window? : Option RefreshWindow} {padding : Duration}
    (coherent : roomy.Coherent)
    (fresh : entry = .fresh draft.key draft.value
      (deadline now settings.timeToLive)
      (window?.map fun window => deadline now (window.earliest + padding)))
    {name : String} (member : name ∈ draft.names)
    (visible : name = draft.key ∨
      name ∉ (roomy.upsert entry draft.aliases).entries)
    (seat : next.shards[next.route name]? =
      some (roomy.upsert entry draft.aliases))
    (again : next.clock.read.1 = .ok now) :
    Ends (lookup settings name) next
      (fun found _ => found = draft.lookup) (fun _ _ => False) := by
  have keyed : entry.key = draft.key := by rw [fresh]; rfl
  have resolved := resolve_upsert coherent keyed member visible
  have live : now ≤ entry.expiresAt := by
    rw [fresh]
    exact le_deadline now _
  have early : ∀ instant ∈ entry.refreshAt, now ≤ instant := by
    rw [fresh]
    intro instant drawn
    simp only [Entry.fresh, Option.mem_def, Option.map_eq_some_iff] at drawn
    obtain ⟨window, _, rfl⟩ := drawn
    exact le_deadline now _
  have glance := Shard.glance_of_resolve resolved live early
  refine (ends_lookup_of_glance seat again glance).weaken ?_ fun _ _ => id
  intro found _ shown
  rw [shown, fresh]
  rfl

theorem ends_lookup_of_stored
    {name : String} {instant : Instant}
    (seat : next.shards[next.route name]? = some shard)
    (found : shard.entries[name]? = some entry)
    (decided : next.deciding name = .ok instant) :
    Ends (lookup settings name) next
      (fun lookup _ => lookup.content = entry.shown instant)
      (fun _ _ => False) := by
  refine (ends_lookup_of_deciding seat decided).weaken ?_ fun _ _ => id
  intro lookup _ content
  rw [content, Shard.seen,
    Shard.resolve_of_stored (Shard.stored_of_found found), found,
    Option.bind_some]

end Written

/-- Right after a write that returned and was not dropped, all names of the draft
are routed to one shard.  At the reading that the write took, a name reads back
the draft, unless it is shadowed; then it reads what the other entry shows. -/
theorem write_read_back
    [Keyed Value] {settings : Settings} (valid : settings.Valid)
    (paddings : Nat → List Nat) (operations : List (Operation Value))
    (draft : Draft Value) {evicted : Bool} {next : Cache Value}
    (returned : (writeDraft settings draft).run
        (operate settings (empty settings paddings) operations) =
      .ok evicted next)
    (kept : ¬ (operate settings (empty settings paddings)
      operations).Drops settings draft.key) :
    (∀ name ∈ draft.names, next.route name = next.route draft.key) ∧
      ∀ now,
        (operate settings (empty settings paddings)
          operations).clock.read.1 = .ok now →
        next.clock.read.1 = .ok now →
        ∀ name ∈ draft.names,
          (¬ next.Shadowed draft name →
            Ends (lookup settings name) next
              (fun found _ => found = draft.lookup) (fun _ _ => False)) ∧
          (∀ shard other instant, next.Shadowed draft name →
            next.shards[next.route draft.key]? = some shard →
            shard.entries[name]? = some other →
            next.deciding name = .ok instant →
              Ends (lookup settings name) next
                (fun found _ => found.content = other.shown instant)
                (fun _ _ => False)) := by
  have coherent :
      (operate settings (empty settings paddings) operations).Coherent :=
    (coherent_empty valid paddings).of_runs
      (runs_operate settings (empty settings paddings) operations)
  generalize operate settings (empty settings paddings) operations = before
    at coherent returned kept ⊢
  obtain ⟨shard, seat⟩ := coherent.seat draft.key
  have outcome := ends_of_run_ok (ends_write seat) returned
  obtain ⟨claimed, wroteAt, refreshAt, padding, roomy, claims, reading,
    refreshTime, alike, reseats⟩ := outcome.of_not_drops seat kept
  have routed : ∀ name ∈ draft.names,
      next.route name = before.route draft.key := fun _ =>
    route_of_claims claims reseats
  have home := routed draft.key List.mem_cons_self
  have roomyCoherent : roomy.Coherent :=
    alike.coherent ((coherent.shards seat).eraseAll _)
  refine ⟨fun name member => (routed name member).trans home.symm, ?_⟩
  intro now readAt again name member
  obtain rfl : now = wroteAt := by
    rw [reading] at readAt
    exact (Except.ok.inj readAt).symm
  subst refreshTime
  generalize entryIs : Entry.fresh draft.key draft.value _ _ = entry
    at reseats
  have nameSeat : next.shards[next.route name]? =
      some (roomy.upsert entry draft.aliases) := by
    rw [routed name member, reseats.seat]
  constructor
  · intro unshadowed
    have visible : name = draft.key ∨
        name ∉ (roomy.upsert entry draft.aliases).entries := by
      by_cases same : name = draft.key
      · exact Or.inl same
      · refine Or.inr fun there => unshadowed ⟨same, ?_⟩
        rw [home]
        exact (stores_iff_of_seat reseats.seat).mpr there
    exact ends_lookup_of_visible roomyCoherent entryIs.symm member visible
      nameSeat again
  · intro found other instant shadowed foundSeat otherStored decided
    rw [home, ← routed name member] at foundSeat
    exact ends_lookup_of_stored foundSeat otherStored decided

/-- A draft with an alias that has been an alias of its key before. -/
def renewed : Draft NameTag := ⟨"d", some ⟨"d", []⟩, ["a"]⟩

theorem write_read_back_renewed :
    Settings.twoShards.Valid ∧
      Ends (lookup Settings.twoShards "a")
        (final (writeDraft Settings.twoShards renewed)
          (operate Settings.twoShards
            (empty Settings.twoShards fun _ => []) contested))
        (fun found _ => found = .found ⟨"d", []⟩ false)
        (fun _ _ => False) := by
  have valid : Settings.twoShards.Valid := by decide
  have answered : result? (writeDraft Settings.twoShards renewed)
      (operate Settings.twoShards (empty Settings.twoShards fun _ => [])
        contested) = some false := by
    decide +kernel
  have stated := write_read_back valid (fun _ => []) contested renewed
    (run_of_result? answered) (by decide +kernel)
  have readable := stated.2 0 (by rfl) (by rfl) "a" (by decide)
  exact ⟨valid, readable.1 (by decide +kernel)⟩

/-- A write whose alias is still the key of an entry that has expired. -/
def overdue : List (Act Nat) :=
  [.write ⟨"a", some 1, []⟩, .quiet (.advance 2000)]

/-- The write returns and is not dropped, its key reads it back at the same
reading, and its alias finds nothing. -/
theorem alias_shadowed_by_expired :
    Settings.twoShards.Valid ∧
      (let before :=
        follow Settings.twoShards (empty Settings.twoShards fun _ => [])
          overdue
      let draft : Draft Nat := ⟨"k", some 2, ["a"]⟩
      let next := final (writeDraft Settings.twoShards draft) before
      result? (writeDraft Settings.twoShards draft) before = some false ∧
        ¬ before.Drops Settings.twoShards "k" ∧
          before.clock = next.clock ∧ next.Shadowed draft "a" ∧
            result? (lookup Settings.twoShards "k") next =
              some (.found 2 false) ∧
              result? (lookup Settings.twoShards "a") next =
                some .absent) := by
  decide +kernel

end Cache

end ReadThrough
