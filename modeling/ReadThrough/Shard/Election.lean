import ReadThrough.Settings
import ReadThrough.Shard

/-!
# Reading a shard and electing who refreshes

A read has two parts.  `glance` decides every read but that of a live entry
which is due.  Such a read goes on with `elect`, at an instant of its own and
on the shard as it is by then: it looks again, and if the entry is still due
the reader is elected and the next election is put off.

`peek` reads without taking part in elections.
-/

namespace ReadThrough.Shard

variable {Value : Type}

/-- The first part of a read.  Nothing is answered when the entry is due. -/
def glance
    (shard : Shard Value) (name : String) (now : Instant) :
    Option (Lookup Value) :=
  match shard.resolve name with
  | none => some .absent
  | some entry =>
      if entry.isExpired now then some .absent
      else if entry.isDue now then none
      else some (entry.lookup false)

/-- The second part of a read. -/
def elect
    (shard : Shard Value) (refresh : Option RefreshWindow)
    (name : String) (now : Instant) : Lookup Value × Shard Value :=
  match shard.resolve name with
  | none => (.absent, shard)
  | some entry =>
      if entry.isExpired now then (.absent, shard)
      else if entry.isDue now then
        match refresh with
        | none => (entry.lookup false, shard)
        | some window =>
            (entry.lookup true,
              shard.adjust (shard.primary name)
                (·.postponed window.retryBase now))
      else (entry.lookup false, shard)

/-- A read that elects nobody, of an entry that has been resolved. -/
def peek
    (shard : Shard Value) (name : String) (now : Instant) : Lookup Value :=
  match shard.resolve name with
  | none => .absent
  | some entry =>
      if entry.isExpired now then .absent else entry.lookup false

/-- The keys of the live entries, in order. -/
def liveKeys (shard : Shard Value) (now : Instant) : List String :=
  (shard.entries.toList.filter fun stored => !stored.2.isExpired now).map
    fun stored => stored.2.key

end ReadThrough.Shard
