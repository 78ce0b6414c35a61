/-!
# Points in time

An instant is a day counted from 1970-01-01, a second of that day in universal time and the
nanoseconds since that second began. A leap second belongs to the last second of a minute, whose
nanoseconds then run on past one billion. The order is that of day, second and nanosecond, which
is the order of the integers `orderKey`; they determine the instant.
-/

namespace ArtifactGC

/-- The first day that an instant may have, the first of January of the year -262143. -/
def Instant.minDay : Int := -96465292

/-- The last day that an instant may have, the last of December of the year 262142. -/
def Instant.maxDay : Int := 95026236

/-- A point in time, in universal time. -/
structure Instant where
  /-- Days since 1970-01-01. -/
  day : Int
  /-- Second of the day. -/
  second : Fin 86400
  /-- Nanoseconds since the second began, one billion or more inside a leap second. -/
  nanos : Fin 2000000000
  /-- The day is in range. -/
  inRange : Instant.minDay ≤ day ∧ day ≤ Instant.maxDay
  /-- A leap second follows the last second of a minute. -/
  leap : nanos.val < 1000000000 ∨ second.val % 60 = 59
deriving DecidableEq, Repr

namespace Instant

/-- The integer whose order is the order of instants. -/
def orderKey (t : Instant) : Int := (t.day * 86400 + t.second.val) * 2000000000 + t.nanos.val

/-- The order key determines the instant. -/
theorem orderKey_inj {a b : Instant} (h : a.orderKey = b.orderKey) : a = b := by
  obtain ⟨day, second, nanos, _, _⟩ := a
  obtain ⟨day', second', nanos', _, _⟩ := b
  simp only [orderKey] at h
  have hn : nanos = nanos' := Fin.ext (by omega)
  have hs : second = second' := Fin.ext (by omega)
  have hd : day = day' := by omega
  subst hn hs hd
  rfl

instance : Ord Instant := ⟨fun a b => compare a.orderKey b.orderKey⟩

/-- Whether one instant comes before another. -/
def isBefore (a b : Instant) : Bool := a.orderKey < b.orderKey

end Instant

end ArtifactGC
