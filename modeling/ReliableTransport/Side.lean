/-!
# The two ends

Connections, links and sessions have two ends.
-/

namespace ReliableTransport

/-- One of two ends. -/
inductive Side where
  /-- The first end. -/
  | first
  /-- The second end. -/
  | second
  deriving DecidableEq, Repr

namespace Side

/-- The opposite end. -/
def other : Side → Side
  | first => second
  | second => first

@[simp]
theorem other_other (side : Side) : side.other.other = side := by
  cases side <;> rfl

theorem other_ne (side : Side) : side.other ≠ side := by
  cases side <;> decide

end Side
end ReliableTransport
