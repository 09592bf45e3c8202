/-!
# A scripted input line

A line gives the levels of its script one by one and then stays at its idle level. A level may be a read that fails.
-/

namespace PenRail.Bench

structure Pin where
  levels : List (Except String Bool) := []
  idle : Bool := false

namespace Pin

/-- One reading, and the line afterwards. -/
def read (p : Pin) : Except String Bool × Pin :=
  match p.levels with
  | [] => (.ok p.idle, p)
  | level :: rest => (level, { p with levels := rest })

/-- A change to the script of a line; what it leaves out stays as it is. -/
structure Change where
  levels : Option (List (Except String Bool)) := none
  idle : Option Bool := none

def change (p : Pin) (by_ : Change) : Pin where
  levels := by_.levels.getD p.levels
  idle := by_.idle.getD p.idle

end Pin

end PenRail.Bench
