import ReadThrough.Entry
import Std.Data.ExtTreeMap
import Std.Data.ExtTreeSet

/-!
# Shards

A shard stores entries under their keys.  An entry can also be reached through
aliases.  Two indices keep track of them: `keyOfAlias` leads from an alias to
its key, and `aliasesOfKey` lists the aliases of a key.

A name is resolved as a key first and as an alias second.
-/

namespace ReadThrough

open Std (ExtTreeMap)

/-- One part of the store of a cache. -/
structure Shard (Value : Type) where
  /-- Number of entries at which a further key finds the shard full. -/
  capacity : Nat
  /-- The entries by their keys. -/
  entries : ExtTreeMap String (Entry Value)
  /-- The key that each alias is bound to. -/
  keyOfAlias : ExtTreeMap String String
  /-- The aliases of each key that has any, in order. -/
  aliasesOfKey : ExtTreeMap String (List String)
  /-- Random numbers for the refresh times of the next writes. -/
  paddings : List Nat

namespace Shard

variable {Value : Type}

/-- A shard without entries. -/
def empty (capacity : Nat) (paddings : List Nat) : Shard Value :=
  { capacity, entries := ∅, keyOfAlias := ∅, aliasesOfKey := ∅, paddings }

/-- Number of stored entries, expired ones included. -/
def size (shard : Shard Value) : Nat :=
  shard.entries.size

/-! ## Names -/

/-- The key that a name stands for: itself when an entry is stored under it,
otherwise the key it is an alias of, otherwise itself. -/
def primary (shard : Shard Value) (name : String) : String :=
  if name ∈ shard.entries then name
  else (shard.keyOfAlias[name]?).getD name

/-- The entry that a name leads to. -/
def resolve (shard : Shard Value) (name : String) : Option (Entry Value) :=
  shard.entries[shard.primary name]?

/-- The aliases bound to a key. -/
def aliases (shard : Shard Value) (key : String) : List String :=
  (shard.aliasesOfKey[key]?).getD []

/-- The key and the aliases of the entry that a name leads to, whether expired
or not. -/
def binding
    (shard : Shard Value) (name : String) : Option (String × List String) :=
  (shard.resolve name).map fun entry => (entry.key, shard.aliases entry.key)

/-- The first of some aliases of a key that is bound to another key, and that
other key.  The key itself is no alias. -/
def foreignAlias?
    (shard : Shard Value) (key : String) (aliases : List String) :
    Option (String × String) :=
  (aliases.filter (· ≠ key)).findSome? fun name =>
    ((shard.keyOfAlias[name]?).filter (· ≠ key)).map (name, ·)

/-! ## Changes -/

/-- Remove the entry stored under a key together with its aliases. -/
def erase (shard : Shard Value) (key : String) : Shard Value :=
  if key ∈ shard.entries then
    { shard with
      entries := shard.entries.erase key
      keyOfAlias := (shard.aliases key).foldl .erase shard.keyOfAlias
      aliasesOfKey := shard.aliasesOfKey.erase key }
  else
    shard

/-- Removing a key takes its entry away and no other. -/
@[simp]
theorem entries_erase (shard : Shard Value) (key : String) :
    (shard.erase key).entries = shard.entries.erase key := by
  by_cases stored : key ∈ shard.entries
  · simp only [erase, if_pos stored]
  · simp only [erase, if_neg stored]
    apply ExtTreeMap.ext_getElem?
    intro other
    have nothing : shard.entries[key]? = none :=
      ExtTreeMap.getElem?_eq_none stored
    rw [ExtTreeMap.getElem?_erase]
    by_cases same : key = other
    · subst same
      simp [nothing]
    · simp [same]

/-- Remove the entries stored under each of the keys. -/
def eraseAll (shard : Shard Value) (keys : List String) : Shard Value :=
  keys.foldl erase shard

/-- The aliases that a write asks for, in order: every one once, and not the
key itself. -/
def boundAliases (key : String) (aliases : List String) : List String :=
  (Std.ExtTreeSet.ofList (aliases.filter (· ≠ key))).toList

/-- A write binds the aliases it asks for, except the key itself. -/
@[simp]
theorem mem_boundAliases {key name : String} {aliases : List String} :
    name ∈ boundAliases key aliases ↔ name ∈ aliases ∧ name ≠ key := by
  rw [boundAliases, Std.ExtTreeSet.mem_toList, Std.ExtTreeSet.mem_ofList]
  simp

/-- Store an entry under its key in place of what was stored there, and bind
the aliases to it. -/
def upsert
    (shard : Shard Value) (entry : Entry Value) (aliases : List String) :
    Shard Value :=
  let bound := boundAliases entry.key aliases
  let cleared := shard.erase entry.key
  { cleared with
    entries := cleared.entries.insert entry.key entry
    keyOfAlias :=
      bound.foldl (fun index name => index.insert name entry.key)
        cleared.keyOfAlias
    aliasesOfKey :=
      if bound.isEmpty then cleared.aliasesOfKey
      else cleared.aliasesOfKey.insert entry.key bound }

/-- A write changes what is stored under its key and nothing else. -/
@[simp]
theorem entries_upsert
    (shard : Shard Value) (entry : Entry Value) (aliases : List String) :
    (shard.upsert entry aliases).entries =
      shard.entries.insert entry.key entry := by
  apply ExtTreeMap.ext_getElem?
  intro other
  simp only [upsert, entries_erase]
  rw [ExtTreeMap.getElem?_insert, ExtTreeMap.getElem?_insert,
    ExtTreeMap.getElem?_erase]
  by_cases same : entry.key = other
  · simp [same]
  · simp [same]

/-- Replace the entry stored under a key by what a function makes of it. -/
def adjust
    (shard : Shard Value) (key : String)
    (change : Entry Value → Entry Value) : Shard Value :=
  { shard with entries := shard.entries.modify key change }

/-- Remove the entry that a name leads to.  The answer tells whether there was
one. -/
def delete (shard : Shard Value) (name : String) : Bool × Shard Value :=
  let key := shard.primary name
  (decide (key ∈ shard.entries), shard.erase key)

/-! ## Random paddings -/

/-- Take a random duration below `spread`.  Nothing is taken when there is no
room for one. -/
def takePadding
    (shard : Shard Value) (spread : Duration) : Duration × Shard Value :=
  if spread = 0 then
    (0, shard)
  else
    match shard.paddings with
    | [] => (0, shard)
    | padding :: rest => (padding % spread, { shard with paddings := rest })

end Shard

end ReadThrough
