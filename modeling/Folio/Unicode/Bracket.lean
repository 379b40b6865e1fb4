/-!
# Paired brackets

The brackets that bidirectional resolution treats as pairs.  Two brackets belong together
when they open and close the same pair; a pair is named by its opening code point.
-/

namespace Folio

/-- A bracket, with the pair to which it belongs. -/
inductive Bracket where
  | opening (pair : Nat)
  | closing (pair : Nat)
  deriving DecidableEq, Repr

namespace Bracket

/-- The opening and the closing code point of each pair. -/
def pairs : List (Nat × Nat) := [
    (0x0028, 0x0029), (0x005B, 0x005D), (0x007B, 0x007D), (0x0F3A, 0x0F3B),
    (0x0F3C, 0x0F3D), (0x169B, 0x169C), (0x2045, 0x2046), (0x207D, 0x207E),
    (0x208D, 0x208E), (0x2308, 0x2309), (0x230A, 0x230B), (0x2329, 0x232A),
    (0x2768, 0x2769), (0x276A, 0x276B), (0x276C, 0x276D), (0x276E, 0x276F),
    (0x2770, 0x2771), (0x2772, 0x2773), (0x2774, 0x2775), (0x27C5, 0x27C6),
    (0x27E6, 0x27E7), (0x27E8, 0x27E9), (0x27EA, 0x27EB), (0x27EC, 0x27ED),
    (0x27EE, 0x27EF), (0x2983, 0x2984), (0x2985, 0x2986), (0x2987, 0x2988),
    (0x2989, 0x298A), (0x298B, 0x298C), (0x298D, 0x2990), (0x298F, 0x298E),
    (0x2991, 0x2992), (0x2993, 0x2994), (0x2995, 0x2996), (0x2997, 0x2998),
    (0x29D8, 0x29D9), (0x29DA, 0x29DB), (0x29FC, 0x29FD), (0x2E22, 0x2E23),
    (0x2E24, 0x2E25), (0x2E26, 0x2E27), (0x2E28, 0x2E29), (0x2E55, 0x2E56),
    (0x2E57, 0x2E58), (0x2E59, 0x2E5A), (0x2E5B, 0x2E5C), (0x3008, 0x3009),
    (0x300A, 0x300B), (0x300C, 0x300D), (0x300E, 0x300F), (0x3010, 0x3011),
    (0x3014, 0x3015), (0x3016, 0x3017), (0x3018, 0x3019), (0x301A, 0x301B),
    (0xFE59, 0xFE5A), (0xFE5B, 0xFE5C), (0xFE5D, 0xFE5E), (0xFF08, 0xFF09),
    (0xFF3B, 0xFF3D), (0xFF5B, 0xFF5D), (0xFF5F, 0xFF60), (0xFF62, 0xFF63)]

/-- The angle brackets U+2329 and U+232A are canonically those at U+3008. -/
def canonicalPair (pair : Nat) : Nat :=
  if pair == 0x2329 then 0x3008 else pair

/-- The side and pair of a character, if it is a paired bracket. -/
def ofChar? (c : Char) : Option Bracket :=
  pairs.findSome? fun (first, last) =>
    if c.toNat == first then
      some (.opening (canonicalPair first))
    else if c.toNat == last then
      some (.closing (canonicalPair first))
    else
      none

end Bracket

end Folio
