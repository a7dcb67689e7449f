import ReadThrough.Proofs.Cache.Places
import ReadThrough.Proofs.Shard.Removing

/-!
# What places hold

A place holds an entry together with the aliases of its key, or nothing.  This
is all that a shard knows about a key: the value and both deadlines of its
entry, how often its readers were elected, and the names that are bound to it.

Removing a key or writing it changes what the place of that key holds and leaves
every other place as it is.  A name whose place holds nothing is absent at every
reading of the clock.
-/

namespace ReadThrough

open Std (ExtTreeMap)

namespace Shard

variable {Value : Type} {shard : Shard Value}

/-- The entry stored under a key, with the aliases of the key. -/
def held (shard : Shard Value) (key : String) :
    Option (Entry Value × List String) :=
  (shard.entries[key]?).map fun entry => (entry, shard.aliases key)

theorem held_eq_none_iff {key : String} :
    shard.held key = none ↔ key ∉ shard.entries := by
  simp [held]

theorem isSome_held_iff {key : String} :
    (shard.held key).isSome ↔ key ∈ shard.entries := by
  rw [Option.isSome_iff_ne_none, ne_eq, held_eq_none_iff,
    Decidable.not_not]

theorem held_congr {left right : Shard Value} {key : String}
    (entries : left.entries[key]? = right.entries[key]?)
    (aliases : left.aliases key = right.aliases key) :
    left.held key = right.held key := by
  rw [held, held, entries, aliases]

section Coherent

variable (coherent : shard.Coherent)

include coherent

theorem held_erase (key other : String) :
    (shard.erase key).held other =
      if key = other then none else shard.held other := by
  split
  next same =>
    rw [held_eq_none_iff, entries_erase]
    simp [same]
  next apart =>
    apply held_congr
    · rw [entries_erase, ExtTreeMap.getElem?_erase]
      simp [apart]
    · rw [aliases_erase coherent, if_neg apart]

theorem held_eraseAll (keys : List String) (key : String) :
    (shard.eraseAll keys).held key =
      if key ∈ keys then none else shard.held key := by
  split
  next member =>
    rw [held_eq_none_iff, mem_entries_eraseAll]
    exact fun stored => stored.2 member
  next apart =>
    apply held_congr
    · rw [getElem?_entries_eraseAll, if_neg apart]
    · rw [aliases, aliases, getElem?_aliasesOfKey_eraseAll coherent,
        if_neg apart]

theorem held_upsert
    (entry : Entry Value) (names : List String) (key : String) :
    (shard.upsert entry names).held key =
      if entry.key = key then some (entry, boundAliases entry.key names)
      else shard.held key := by
  split
  next same =>
    subst same
    rw [held, entries_upsert, ExtTreeMap.getElem?_insert_self,
      aliases_upsert coherent, if_pos rfl, Option.map_some]
  next apart =>
    apply held_congr
    · rw [entries_upsert, ExtTreeMap.getElem?_insert]
      simp [apart]
    · rw [aliases_upsert coherent, if_neg apart]

end Coherent

end Shard

namespace Cache

variable {Value : Type} {cache before after : Cache Value} {index : Nat}
  {shard : Shard Value} {name : String}

/-- The entry stored at a place, with the aliases of its key. -/
def held (cache : Cache Value) (place : Nat × String) :
    Option (Entry Value × List String) :=
  (cache.shards[place.1]?).bind (·.held place.2)

theorem held_of_seat
    (seat : cache.shards[index]? = some shard) (key : String) :
    cache.held (index, key) = shard.held key := by
  rw [held, seat, Option.bind_some]

theorem held_eq_of_shards {place : Nat × String}
    (same : after.shards[place.1]? = before.shards[place.1]?) :
    after.held place = before.held place := by
  rw [held, held, same]

/-- Where a shard has been put in its place, only what that shard holds can have
changed. -/
theorem Reseats.held
    (reseats : Reseats index shard before after) (place : Nat × String) :
    after.held place =
      if place.1 = index then shard.held place.2 else before.held place := by
  rw [Cache.held, reseats.shards_eq]
  split
  · rfl
  · rfl

/-- A name whose place holds nothing is absent, whatever the clock shows. -/
theorem ends_lookup_of_unheld
    (settings : Settings)
    (seat : cache.shards[cache.route name]? = some shard)
    (nothing : cache.held (cache.place name) = none)
    {clock : Clock} {now : Instant} (reading : clock.read.1 = .ok now) :
    Ends (lookup settings name) (cache.withClock clock)
      (fun found _ => found = .absent) (fun _ _ => False) := by
  have resolved : shard.resolve name = none := by
    rw [place_of_seat seat, held_of_seat seat, Shard.held_eq_none_iff]
      at nothing
    exact ExtTreeMap.getElem?_eq_none nothing
  have glance : shard.glance name now = some .absent := by
    rw [Shard.glance, resolved]
  have sameSeat :
      (cache.withClock clock).shards[(cache.withClock clock).route name]? =
        some shard :=
    seat
  exact ends_lookup_of_glance sameSeat reading glance

end Cache

end ReadThrough
