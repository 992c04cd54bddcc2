/-!
# Hexadecimal digits

Numbers and characters written in hexadecimal digits, as escape sequences have them.
-/

namespace RemoteImports.Text

/-- The hexadecimal digit of a number below sixteen. -/
def hexDigit (n : Nat) : Char :=
  if n < 10 then Char.ofNat (48 + n) else Char.ofNat (87 + n)

/-- The value of a hexadecimal digit. -/
def hexDigit? (c : Char) : Option Nat :=
  if '0' ≤ c ∧ c ≤ '9' then some (c.toNat - 48)
  else if 'a' ≤ c ∧ c ≤ 'f' then some (c.toNat - 87)
  else if 'A' ≤ c ∧ c ≤ 'F' then some (c.toNat - 55)
  else none

/-- The value of a row of hexadecimal digits. -/
def hexValue? (digits : List Char) : Option Nat :=
  digits.foldlM (fun n c => (hexDigit? c).map (16 * n + ·)) 0

/-- The character with a code point given by hexadecimal digits. -/
def scalar? (digits : List Char) : Option Char :=
  (hexValue? digits).bind fun n => if h : n.isValidChar then some (Char.ofNatAux n h) else none

end RemoteImports.Text
