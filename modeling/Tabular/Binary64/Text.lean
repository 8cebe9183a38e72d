import Tabular.Binary64.Decimal

/-!
# The text of a real

Two layouts of the shortest decimal: positional for every real, and one that passes to an exponent
for the very large and the very small.  Reading takes a run of digits with a point in it.
-/

namespace Tabular.Binary64

/-- Where a layout leaves positional writing. -/
structure Layout where
  /-- Does a real with this scientific exponent take the exponent form? -/
  usesExponent : Int → Bool

/-- Values are written positionally, always with a fraction. -/
def Layout.positional : Layout :=
  ⟨fun _ => false⟩

/-- Literals in messages are positional from `0.0001` to below `10000000000000000`. -/
def Layout.compact : Layout :=
  ⟨fun exponent => exponent < -4 || 16 ≤ exponent⟩

/--
Positional writing of `0.digits * 10 ^ point`, with at least one digit on each side of the
point.
-/
def positionalText (digits : List Char) (point : Int) : List Char :=
  if point ≤ 0 then
    '0' :: '.' :: (List.replicate point.natAbs '0' ++ (if digits.isEmpty then ['0'] else digits))
  else
    let places := point.natAbs
    let fraction := digits.drop places
    digits.take places ++ List.replicate (places - digits.length) '0'
      ++ '.' :: (if fraction.isEmpty then ['0'] else fraction)

/-- Exponent form of `d.igits * 10 ^ exponent`. -/
def exponentText (digits : List Char) (exponent : Int) : List Char :=
  let rest := digits.drop 1
  digits.take 1 ++ (if rest.isEmpty then [] else '.' :: rest) ++ 'e' :: (toString exponent).toList

/-- The digits of a number without the zeros at its end, and how many those were; none for zero. -/
def trimmedDigits (n : Nat) : List Char × Nat :=
  let all := if n = 0 then [] else Nat.toDigits 10 n
  let kept := (all.reverse.dropWhile (· == '0')).reverse
  (kept, all.length - kept.length)

def Layout.decimalText (layout : Layout) (d : Decimal) : List Char :=
  let (digits, zeros) := trimmedDigits d.digits
  let point := if digits.isEmpty then 0 else digits.length + zeros + d.exponent
  if !digits.isEmpty && layout.usesExponent (point - 1) then exponentText digits (point - 1)
  else positionalText digits point

def Layout.text (layout : Layout) (x : Binary64) : String :=
  if isNaN x then "NaN"
  else
    let sign := if isNegative x then "-" else ""
    if isFinite x then sign ++ String.ofList (layout.decimalText (shortestDecimal (magnitude x)))
    else sign ++ "inf"

def digitsValue (digits : List Char) : Nat :=
  digits.foldl (fun n c => 10 * n + (c.toNat - '0'.toNat)) 0

/-- The magnitude that `whole`, a point, and `fraction` read as. -/
def digitsMagnitude (whole fraction : List Char) : Nat :=
  nearest (digitsValue (whole ++ fraction)) (10 ^ fraction.length)

/-- The real that digits with a point among them stand for; a point alone stands for none. -/
def ofDecimal? (cs : List Char) : Option Binary64 :=
  let whole := cs.takeWhile Char.isDigit
  match cs.dropWhile Char.isDigit with
  | '.' :: fraction =>
      if fraction.all Char.isDigit ∧ ¬(whole = [] ∧ fraction = []) then
        some (ofParts false (digitsMagnitude whole fraction))
      else none
  | _ => none

theorem ofDecimal?_digits {whole fraction : List Char} (given : whole ≠ [])
    (digits : ∀ c ∈ whole, c.isDigit = true) (digits' : ∀ c ∈ fraction, c.isDigit = true) :
    ofDecimal? (whole ++ '.' :: fraction) =
      some (ofParts false (digitsMagnitude whole fraction)) := by
  have stop : ('.' :: fraction).takeWhile Char.isDigit = [] :=
    List.takeWhile_cons_of_neg (by decide)
  have point : ('.' :: fraction).dropWhile Char.isDigit = '.' :: fraction :=
    List.dropWhile_cons_of_neg (by decide)
  unfold ofDecimal?
  rw [List.takeWhile_append_of_pos digits, List.dropWhile_append_of_pos digits, stop, point,
    List.append_nil]
  exact if_pos ⟨List.all_eq_true.mpr digits', fun empty => given empty.1⟩

/-- The real that a text of `Layout.positional` stands for. -/
def ofText (text : String) : Binary64 :=
  match text.toList with
  | '-' :: rest => ofParts true (unsigned rest)
  | rest => ofParts false (unsigned rest)
where
  unsigned (cs : List Char) : Nat :=
    if cs = "inf".toList then infinity
    else if cs = "NaN".toList then infinity + quietBit
    else digitsMagnitude (cs.takeWhile (· != '.')) ((cs.dropWhile (· != '.')).drop 1)

end Tabular.Binary64
