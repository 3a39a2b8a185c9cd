import EmuFront.Engine.Params
import EmuFront.Overlay.Kind
import EmuFront.Path

/-!
# Overlays

An overlay has an identity that is never given twice, its contents, and bounds while it is attached
to the surface.
-/

namespace EmuFront

/-- What an overlay shows. -/
inductive OverlayContent
  /-- The splash screen, and whether the user may close it. -/
  | splash (dismissable : Bool)
  | mainMenu
  | settingsMenu
  /-- The disk image picker, with the images as they were when it was opened. -/
  | disksMenu (images : List Path)
  | confirm (kind : ConfirmKind)
deriving Repr, DecidableEq

namespace OverlayContent

def kind : OverlayContent → OverlayKind
  | splash _ => .splashScreen
  | mainMenu => .mainMenu
  | settingsMenu => .settingsMenu
  | disksMenu _ => .disksMenu
  | confirm question => question.overlay

end OverlayContent

/-- An overlay. -/
structure Overlay where
  /-- The number by which the host finds the view behind the overlay. -/
  id : Nat
  content : OverlayContent
  /-- The bounds of the overlay, while it is attached. -/
  bounds : Option SurfaceSize
deriving Repr, DecidableEq

namespace Overlay

def kind (o : Overlay) : OverlayKind := o.content.kind

def isAttached (o : Overlay) : Bool := o.bounds.isSome

/-- Whether the user may close the overlay. -/
def isDismissable (o : Overlay) : Bool :=
  match o.content with
  | .splash dismissable => dismissable
  | _ => true

def attach (o : Overlay) (bounds : SurfaceSize) : Overlay := { o with bounds := some bounds }

def detach (o : Overlay) : Overlay := { o with bounds := none }

/-- Sets whether a splash screen may be closed. -/
def setDismissable (o : Overlay) (dismissable : Bool) : Overlay :=
  match o.content with
  | .splash _ => { o with content := .splash dismissable }
  | _ => o

/-- The question of a confirm dialog. -/
def title? (o : Overlay) : Option String :=
  match o.content with
  | .confirm question => some question.title
  | _ => none

/-- The images of a disk image picker. -/
def images? (o : Overlay) : Option (List Path) :=
  match o.content with
  | .disksMenu images => some images
  | _ => none

@[simp] theorem kind_attach (o : Overlay) (b : SurfaceSize) : (o.attach b).kind = o.kind := rfl

@[simp] theorem kind_detach (o : Overlay) : o.detach.kind = o.kind := rfl

@[simp] theorem kind_setDismissable (o : Overlay) (b : Bool) :
    (o.setDismissable b).kind = o.kind := by
  unfold setDismissable kind
  split
  · rename_i h
    simp [h, OverlayContent.kind]
  · rfl

@[simp] theorem bounds_setDismissable (o : Overlay) (b : Bool) :
    (o.setDismissable b).bounds = o.bounds := by
  unfold setDismissable
  split <;> rfl

end Overlay
end EmuFront
