import StackProfile.Binary64

/-!
# Colours
-/

namespace StackProfile

/-- A colour with an alpha channel. -/
structure Color where
  red : UInt8
  green : UInt8
  blue : UInt8
  alpha : UInt8
  deriving DecidableEq, Repr

namespace Color

def solid (red green blue : UInt8) : Color := ⟨red, green, blue, 255⟩

def white : Color := solid 255 255 255

/-- A channel in `[0, 1]` as a byte: rounded with ties away from zero, clamped, and 0
for NaN. -/
def channel (x : Float) : UInt8 :=
  let scaled := x * 255.0
  match Binary64.ratio? scaled with
  | some r => if r.negative then 0 else UInt8.ofNat (min (Binary64.roundAway r.num r.den) 255)
  | none => if 0.0 < scaled then 255 else 0

/-- The sixth of the colour circle that a hue in `[0, 6]` lies in. -/
def sector (hue : Float) : Nat :=
  match Binary64.ratio? hue with
  | some r => if r.negative then 0 else r.num / r.den
  | none => 0

/-- The opaque colour of a hue in degrees and a saturation and value in `[0, 1]`. -/
def ofHsv (hue saturation value : Float) : Color :=
  let hue := Binary64.modulo hue 360.0 / 60.0
  let chroma := value * saturation
  let x := chroma * (1.0 - (Binary64.remainder hue 2.0 - 1.0).abs)
  let (r, g, b) : Float × Float × Float := match sector hue with
    | 0 => (chroma, x, 0.0)
    | 1 => (x, chroma, 0.0)
    | 2 => (0.0, chroma, x)
    | 3 => (0.0, x, chroma)
    | 4 => (x, 0.0, chroma)
    | _ => (chroma, 0.0, x)
  let m := value - chroma
  solid (channel (r + m)) (channel (g + m)) (channel (b + m))

/-- A byte as two hexadecimal digits. -/
def hexByte (b : UInt8) : List Char :=
  [Nat.digitChar (b.toNat / 16), Nat.digitChar (b.toNat % 16)]

/-- The colour as `#rrggbb`, without its alpha channel. -/
def toHex (c : Color) : String :=
  String.ofList ('#' :: hexByte c.red ++ hexByte c.green ++ hexByte c.blue)

end Color

end StackProfile
