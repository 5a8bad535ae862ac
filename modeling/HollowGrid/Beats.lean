import HollowGrid.Swings

/-! The pace of the world: LAST_HEARTBEAT holds the next world tick off for two seconds, and a
session at rest gains two points in each. -/
namespace HollowGrid

def Server.ticked (g : Server) (now : Int) : Server :=
  { g with world := { g.world with lastHeartbeat := now, tick := g.world.tick + 1 } }

section Seats

variable {env : Env} {g g' : Server} {c : Block}

end Seats

/-- The clock of the world is as it was, and no question is taken back. -/
structure Steady (g₀ g : Server) : Prop where
  later : g₀.asked ≤ g.asked
  clock : Table.clock.ofWorld g.world = Table.clock.ofWorld g₀.world

section Pace

variable {env : Env} {g₀ g g' : Server} {c : Block} {b now : Int}

theorem Steady.lastHeartbeat (still : Steady g₀ g) :
    g.world.lastHeartbeat = g₀.world.lastHeartbeat := by
  have same := congrArg World.lastHeartbeat still.clock
  exact same

theorem Steady.tick (still : Steady g₀ g) : g.world.tick = g₀.world.tick := by
  have same := congrArg World.tick still.clock
  exact same

end Pace

end HollowGrid
