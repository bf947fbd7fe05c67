import InverterLink.Datagram

/-!
# The last value of each variable

The cache keeps, per identifier, the datagram stored last and the time of storing. Entries stay
for good; whoever reads one judges by its age.
-/

namespace InverterLink

/-- A stored datagram and the time of storing. -/
structure CacheEntry where
  datagram : Datagram
  stored : Instant
  deriving DecidableEq

/-- The entries, one per identifier. -/
structure Cache where
  entries : List (Identifier × CacheEntry) := []
  deriving DecidableEq

namespace Cache

def get? (c : Cache) (id : Identifier) : Option CacheEntry := c.entries.lookup id

/-- Store a datagram under its identifier, in place of what was there. -/
def put (c : Cache) (d : Datagram) (now : Instant) : Cache :=
  ⟨(d.identifier, ⟨d, now⟩) :: c.entries.filter (·.1 ≠ d.identifier)⟩

def size (c : Cache) : Nat := c.entries.length

def isEmpty (c : Cache) : Bool := c.entries.isEmpty

end Cache
end InverterLink
