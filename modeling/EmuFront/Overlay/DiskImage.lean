import EmuFront.Text.Utf8

/-!
# Names of disk images

A disk image is a non-empty stem and one of four suffixes, in any letter case of the ASCII letters,
which may be packed as `.gz` once. Names are compared by their bytes.
-/

namespace EmuFront.DiskImage

open Text (Bytes utf8)

/-- The suffixes of disk images, in lower case. -/
def suffixes : List String := [".dsk", ".do", ".po", ".nib"]

/-- The suffix of a packed file, in lower case. -/
def packed : String := ".gz"

/-- A name without its packing suffix. -/
def unpacked (name : Bytes) : Bytes :=
  if (utf8 packed).isSuffixOf name then name.take (name.length - (utf8 packed).length) else name

/-- Whether a name in lower case is that of a disk image that is not packed. -/
def isPlainName (plain : Bytes) : Bool :=
  suffixes.any fun suffix =>
    decide ((utf8 suffix).length < plain.length) && (utf8 suffix).isSuffixOf plain

/-- Whether a name is that of a disk image. A name that is not text is no disk image's. -/
def isName (name : String) : Bool := isPlainName (unpacked ((utf8 name).map Text.lowerByte))

end EmuFront.DiskImage
