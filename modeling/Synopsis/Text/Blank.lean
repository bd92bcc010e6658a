/-! Blank characters, the ones that separate words. -/
namespace Synopsis.Text

/-- The blanks are the spaces, tabs and line ends of every script, together with the four
information separators. -/
def isBlank (c : Char) : Bool :=
  let n := c.toNat
  (0x09 ≤ n && n ≤ 0x0D) || (0x1C ≤ n && n ≤ 0x20) || n == 0x85 || n == 0xA0 || n == 0x1680 ||
  (0x2000 ≤ n && n ≤ 0x200A) || n == 0x2028 || n == 0x2029 || n == 0x202F || n == 0x205F ||
  n == 0x3000

@[simp] theorem isBlank_space : isBlank ' ' = true := by decide

end Synopsis.Text
