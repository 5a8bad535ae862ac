import HollowGrid.Returns

/-! Who plays a character file, and who writes it. Nothing at the login looks for another session
of the same character. -/
namespace HollowGrid

variable {env : Env} {g g' : Server} {e : Event} {c d : Block} {key : Bytes}
  {disk disk' : Disk} {s s' : Session}

end HollowGrid
