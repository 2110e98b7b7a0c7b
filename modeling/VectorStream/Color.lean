import VectorStream.Text.Numeral

/-!
# Colors and palettes

A color has three channels and an opacity, a byte each. A palette is a table of colors that is read
by index. The standard palette has 256 entries: ten named colors, a wheel of 24 hues with ten shades
each, and six grays.
-/
namespace VectorStream
open Text

structure Color where
  red : UInt8
  green : UInt8
  blue : UInt8
  alpha : UInt8 := 255
  deriving DecidableEq, Repr

namespace Color

def black : Color := ⟨0, 0, 0, 255⟩

def white : Color := ⟨255, 255, 255, 255⟩

/-- A color is written as a number sign and two digits for each channel, the opacity last. -/
def text (c : Color) : String :=
  "#" ++ Hex.ofByte c.red ++ Hex.ofByte c.green ++ Hex.ofByte c.blue ++ Hex.ofByte c.alpha

end Color

structure Palette where
  colors : Array Color
  deriving DecidableEq

namespace Palette

def size (p : Palette) : Nat := p.colors.size

def isEmpty (p : Palette) : Bool := p.colors.isEmpty

/-- The color at an index, if the palette reaches so far. -/
def get? (p : Palette) (index : UInt8) : Option Color := p.colors[index.toNat]?

def ofList (colors : List Color) : Palette := ⟨colors.toArray⟩

/-- The named colors that open the standard palette. -/
def named : List Color :=
  [⟨0, 0, 0, 255⟩, ⟨255, 0, 0, 255⟩, ⟨255, 255, 0, 255⟩, ⟨0, 255, 0, 255⟩, ⟨0, 255, 255, 255⟩,
    ⟨0, 0, 255, 255⟩, ⟨255, 0, 255, 255⟩, ⟨255, 255, 255, 255⟩, ⟨128, 128, 128, 255⟩,
    ⟨192, 192, 192, 255⟩]

/-- The channels of a fully saturated hue in quarters of the full intensity. A hue is given in
steps of a quarter of a sixth of the wheel. -/
def saturated (hue : Nat) : Nat × Nat × Nat :=
  let rising := hue % 4
  let falling := 4 - rising
  match hue / 4 with
  | 0 => (4, rising, 0)
  | 1 => (falling, 4, 0)
  | 2 => (0, 4, rising)
  | 3 => (0, falling, 4)
  | 4 => (rising, 0, 4)
  | _ => (4, 0, falling)

/-- The brightness of each pair of shades. -/
def brightness : Nat → Nat
  | 0 => 255
  | 1 => 204
  | 2 => 153
  | 3 => 127
  | _ => 76

/-- One channel of a shade: an odd shade lies halfway between the saturated color and white. The
product of eighths and brightness is rounded to the nearest whole number. -/
def channel (shade quarters : Nat) : UInt8 :=
  let eighths := if shade % 2 = 0 then 2 * quarters else 4 + quarters
  UInt8.ofNat ((2 * brightness (shade / 2) * eighths + 8) / 16)

/-- The entry of the color wheel with the given hue and shade. -/
def wheel (hue shade : Nat) : Color :=
  let (r, g, b) := saturated hue
  ⟨channel shade r, channel shade g, channel shade b, 255⟩

def gray (level : UInt8) : Color := ⟨level, level, level, 255⟩

/-- The palette that a stream uses unless another one is supplied. -/
def standard : Palette :=
  ofList (named ++ (List.range 240).map (fun k => wheel (k / 10) (k % 10))
    ++ [51, 91, 132, 173, 214, 255].map gray)

theorem size_standard : standard.size = 256 := by
  simp [size, standard, ofList, named]

end Palette

end VectorStream
