/-!
# White space

The characters with the Unicode property `White_Space`, and a text without them at its ends.
-/

namespace ScriptEngine
namespace Blank

/-- The ranges of code points with the property `White_Space`. -/
def ranges : List (Nat × Nat) :=
  [(0x9, 0xd), (0x20, 0x20), (0x85, 0x85), (0xa0, 0xa0), (0x1680, 0x1680), (0x2000, 0x200a),
    (0x2028, 0x2029), (0x202f, 0x202f), (0x205f, 0x205f), (0x3000, 0x3000)]

/-- The character has the property `White_Space`. -/
def isBlank (c : Char) : Bool :=
  ranges.any fun (first, last) => first ≤ c.toNat && c.toNat ≤ last

/-- A text without the white space at its ends. -/
def trim (text : String) : String :=
  let chars := text.toList.dropWhile isBlank
  String.ofList (chars.reverse.dropWhile isBlank).reverse

end Blank
end ScriptEngine
