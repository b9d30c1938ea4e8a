import Stencil.Starter.Basic
import Stencil.Work

/-!
# Making a new template

The directory of a new template must not be there before. It is made with its manifest in it.
-/

namespace Stencil

/-- Makes a new template, and says where. -/
def Starter.make (settings : Settings) (starter : Starter) : Work String := do
  let starter := starter.withDefaults settings
  let destination := starter.destination
  if (← Work.disk).has destination then Work.fail (.alreadyThere destination)
  Work.attempt fun disk => disk.makeDirectories destination
  Work.change fun disk =>
    disk.write (Path.join destination settings.manifestFile) (starter.manifest settings).toUTF8
  pure destination

end Stencil
