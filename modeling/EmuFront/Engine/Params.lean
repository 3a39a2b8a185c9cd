/-!
# What the engine is told about its host

The audio device parameters of its creation, and the size of its drawable surface.
-/

namespace EmuFront

/-- Audio device parameters, handed over when the engine is created. -/
structure AudioParams where
  sampleRate : Int32
  monoBufferBytes : Int32
  stereoBufferBytes : Int32
deriving Repr, DecidableEq

namespace AudioParams

/-- No audio device. -/
def silent : AudioParams := ⟨0, 0, 0⟩

/-- The parameters as they stand in log messages. -/
def text (a : AudioParams) : String :=
  s!"AudioParams \x7b sample_rate: {a.sampleRate.toInt}, "
    ++ s!"mono_buffer_bytes: {a.monoBufferBytes.toInt}, "
    ++ s!"stereo_buffer_bytes: {a.stereoBufferBytes.toInt} \x7d"

end AudioParams

/-- The dimensions of the drawable surface. -/
structure SurfaceSize where
  width : Int32
  height : Int32
deriving Repr, DecidableEq

namespace SurfaceSize

/-- A surface without extent. -/
def zero : SurfaceSize := ⟨0, 0⟩

/-- Observed dimensions, turned so that the width is at least the height. -/
def landscape (width height : Int32) : SurfaceSize :=
  if width < height then ⟨height, width⟩ else ⟨width, height⟩

/-- A landscape surface is at least as wide as it is high. -/
theorem height_le_width_landscape (w h : Int32) :
    (landscape w h).height ≤ (landscape w h).width := by
  unfold landscape
  split
  · rename_i hlt
    exact Int32.le_of_lt hlt
  · rename_i hge
    exact Int32.not_lt.mp hge

/-- The dimensions as they stand in log messages. -/
def text (s : SurfaceSize) : String := s!"{s.width.toInt}x{s.height.toInt}"

end SurfaceSize
end EmuFront
