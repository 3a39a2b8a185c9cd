import EmuFront.Overlay.DiskImage
import EmuFront.Machine.Basic

/-!
# Making overlays

Each overlay takes the next number of the machine when it is made. The disk image picker lists its
directory at that moment.
-/

namespace EmuFront

/-- The disk images in a directory, in ascending order. A directory that cannot be read has none. -/
def scanDiskImages (directory : Path) : Work (List Path) := do
  match ← Work.filesIn directory DiskImage.isName with
  | .ok images => return images
  | .error e =>
    Work.log .warn s!"Cannot list disk images in {directory.text}: {e.message}"
    return []

/-- Makes an overlay. -/
def makeOverlay (content : OverlayContent) : Work Overlay := do
  let id := (← get).nextSurface
  modify fun p => { p with nextSurface := id + 1 }
  return ⟨id, content, none⟩

end EmuFront
