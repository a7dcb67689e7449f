import ReadThrough.Proofs.Cache.Reading

/-!
# Work that leaves the store alone

What a cache stores is in its shards and in the routes of its aliases.  A cache
is `Untouched` when both are what they were; the clock may have moved, and
events may have been counted and noted.

Looking a name up again leaves the store alone, and so does everything that
reads the clock or the routes only.
-/

namespace ReadThrough.Cache

variable {Value Result : Type}

/-- Two caches store the same under the same names. -/
structure Untouched (before after : Cache Value) : Prop where
  shards : after.shards = before.shards
  routes : after.routes = before.routes

namespace Untouched

theorem refl (cache : Cache Value) : Untouched cache cache :=
  ⟨rfl, rfl⟩

theorem trans {before middle after : Cache Value}
    (first : Untouched before middle) (second : Untouched middle after) :
    Untouched before after :=
  ⟨second.shards.trans first.shards, second.routes.trans first.routes⟩

instance : IsPreorder (Cache Value) Untouched where
  refl := refl
  trans _ _ _ := trans

end Untouched

theorem respects_readClock_untouched :
    Respects Untouched (readClock : Action Value Instant) := by
  intro cache
  rw [ends_readClock]
  split
  · exact ⟨rfl, rfl⟩
  · exact ⟨rfl, rfl⟩

theorem respects_advanceClock_untouched (duration : Duration) :
    Respects (@Untouched Value) (advanceClock duration) := by
  intro cache
  rw [ends_advanceClock]
  split
  · exact ⟨rfl, rfl⟩
  · exact .refl cache

theorem respects_shardIndex_untouched (name : String) :
    Respects (@Untouched Value) (shardIndex name) := fun cache =>
  ends_shardIndex (fun _ => ⟨rfl, rfl⟩) (.refl cache)

/-- A read that elects nobody leaves the store alone. -/
theorem respects_peek_untouched (name : String) :
    Respects (@Untouched Value) (peek name) := by
  refine (respects_shardIndex_untouched name).bind fun index => ?_
  refine (respects_shardAt index).bind fun shard => ?_
  exact (respects_readClock_untouched.bind fun _ => respects_pure _).ite
    (respects_pure _)

end ReadThrough.Cache
