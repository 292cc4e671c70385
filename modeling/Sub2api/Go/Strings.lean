import Mathlib.Data.List.Infix
import Mathlib.Data.Rat.Floor
import Mathlib.Order.WithBot

/-!
# Strings and floats as Go's standard library has them

`trimSpace` and `equalFold` are `strings.TrimSpace` and `strings.EqualFold`, and `Float64` is a
`float64` seen through its shortest decimal representation, which is how the database driver
sends it.
-/

namespace Sub2api.Go

/-- `unicode.IsSpace`. -/
def isSpace (c : Char) : Bool :=
  let n := c.toNat
  (0x09 ≤ n && n ≤ 0x0d) || n == 0x20 || n == 0x85 || n == 0xa0 || n == 0x1680 ||
    (0x2000 ≤ n && n ≤ 0x200a) || n == 0x2028 || n == 0x2029 || n == 0x202f || n == 0x205f ||
    n == 0x3000

/-- `strings.TrimSpace`. -/
def trimSpace (s : String) : String :=
  String.ofList ((s.toList.dropWhile isSpace).reverse.dropWhile isSpace).reverse

/-- The ASCII letter a rune folds to: besides the capitals only the Kelvin sign and the long s
fold into ASCII. -/
def foldRune (c : Char) : Char :=
  if 'A' ≤ c ∧ c ≤ 'Z' then Char.ofNat (c.toNat + 32)
  else if c.toNat = 0x212a then 'k'
  else if c.toNat = 0x17f then 's'
  else c

/-- `unicode.ToLower`, as far as the result is an ASCII letter: besides the capitals only the
dotted capital I and the Kelvin sign have one. -/
def lowerRune (c : Char) : Char :=
  if 'A' ≤ c ∧ c ≤ 'Z' then Char.ofNat (c.toNat + 32)
  else if c.toNat = 0x130 then 'i'
  else if c.toNat = 0x212a then 'k'
  else c

/-- `strings.EqualFold` against an ASCII constant. -/
def equalFold (s constant : String) : Bool :=
  s.toList.map foldRune == constant.toList.map foldRune

/-- `strings.HasPrefix`. -/
def hasPrefix (s start : String) : Bool := start.toList.isPrefixOf s.toList

private theorem dropWhile_idem {α : Type} (p : α → Bool) (xs : List α) :
    (xs.dropWhile p).dropWhile p = xs.dropWhile p := by
  induction xs with
  | nil => rfl
  | cons x rest ih =>
    by_cases dropped : p x = true
    · simpa [List.dropWhile_cons, dropped] using ih
    · simp [dropped]

/-- Trimming the end leaves a list that did not start with a space starting with none. -/
private theorem dropWhile_reverse_dropWhile {α : Type} (p : α → Bool) {xs : List α}
    (starts : xs.dropWhile p = xs) :
    (xs.reverse.dropWhile p).reverse.dropWhile p = (xs.reverse.dropWhile p).reverse := by
  cases trimmed : (xs.reverse.dropWhile p).reverse with
  | nil => rfl
  | cons y rest =>
    have suffix : xs.reverse.dropWhile p <:+ xs.reverse := List.dropWhile_suffix p
    have ahead : (y :: rest) <+: xs := by
      rw [← trimmed]
      simpa using List.reverse_prefix.mpr suffix
    obtain ⟨tail, rfl⟩ := ahead
    by_cases dropped : p y = true
    · have shorter := congrArg List.length starts
      have bound := (List.dropWhile_sublist p (l := rest ++ tail)).length_le
      simp only [List.cons_append, List.dropWhile_cons, dropped, if_true,
        List.length_cons] at shorter
      omega
    · simp [dropped]

theorem trimSpace_empty : trimSpace "" = "" := rfl

/-- Trimming twice is trimming once. -/
@[simp] theorem trimSpace_trimSpace (s : String) : trimSpace (trimSpace s) = trimSpace s := by
  have starts := dropWhile_reverse_dropWhile isSpace (dropWhile_idem isSpace s.toList)
  unfold trimSpace
  rw [String.toList_ofList, starts, List.reverse_reverse, dropWhile_idem]

/-- A string without white space. -/
def NoBlank (s : String) : Prop := ∀ c ∈ s.toList, isSpace c = false

instance (s : String) : Decidable (NoBlank s) :=
  decidable_of_iff (s.toList.all (fun c => !isSpace c) = true) (by simp [NoBlank])

theorem NoBlank.append {s t : String} (hs : NoBlank s) (ht : NoBlank t) : NoBlank (s ++ t) := by
  intro c member
  rw [String.toList_append, List.mem_append] at member
  rcases member with left | right
  · exact hs c left
  · exact ht c right

theorem trimSpace_of_noBlank {s : String} (printed : NoBlank s) : trimSpace s = s := by
  have kept (cs : List Char) (blankless : ∀ c ∈ cs, isSpace c = false) :
      cs.dropWhile isSpace = cs := by
    cases cs with
    | nil => rfl
    | cons c rest => simp [blankless c (by simp)]
  unfold trimSpace
  rw [kept _ printed, kept _ (fun c member => printed c (by simpa using member)),
    List.reverse_reverse, String.ofList_toList]

/-- `hex.EncodeToString`. -/
def hexEncode (bytes : List (Fin 256)) : String :=
  String.ofList (bytes.flatMap fun b => [Nat.digitChar (b.val / 16), Nat.digitChar (b.val % 16)])

/-- The standard alphabet of base64. -/
def base64Digit (n : ℕ) : Char :=
  "ABCDEFGHIJKLMNOPQRSTUVWXYZabcdefghijklmnopqrstuvwxyz0123456789+/".toList.getD n 'A'

/-- `base64.RawStdEncoding.EncodeToString`, without padding. -/
def base64Encode : List ℕ → List Char
  | a :: b :: c :: rest =>
    base64Digit (a / 4) :: base64Digit (a % 4 * 16 + b / 16) ::
      base64Digit (b % 16 * 4 + c / 64) :: base64Digit (c % 64) :: base64Encode rest
  | [a, b] => [base64Digit (a / 4), base64Digit (a % 4 * 16 + b / 16), base64Digit (b % 16 * 4)]
  | [a] => [base64Digit (a / 4), base64Digit (a % 4 * 16)]
  | [] => []

theorem noBlank_hexEncode (bytes : List (Fin 256)) : NoBlank (hexEncode bytes) := by
  have digit : ∀ n < 16, isSpace (Nat.digitChar n) = false := by decide
  intro c member
  simp only [hexEncode, String.toList_ofList, List.mem_flatMap] at member
  obtain ⟨b, _, shown⟩ := member
  have small := b.isLt
  simp only [List.mem_cons, List.not_mem_nil, or_false] at shown
  rcases shown with rfl | rfl
  · exact digit _ (by omega)
  · exact digit _ (by omega)

/-- A `float64`, a finite one by its shortest decimal. -/
inductive Float64 where
  | finite (decimal : ℚ)
  | posInf
  | negInf
  | nan
  deriving DecidableEq

namespace Float64

/-- `v > 0`, with the amount the driver sends when it holds. -/
def positive : Float64 → Option (WithTop ℚ)
  | .finite v => if 0 < v then some v else none
  | .posInf => some ⊤
  | .negInf => none
  | .nan => none

end Float64

end Sub2api.Go

/-!
### Searching and splitting strings

`strings.Contains`, `strings.HasSuffix`, `strings.TrimSuffix`, `strings.Split` with a separator of
one character, and the part before `strings.Index`.
-/

namespace Sub2api.Go

def contains (s sub : String) : Bool := s.toList.tails.any fun rest => sub.toList.isPrefixOf rest

def hasSuffix (s ending : String) : Bool := ending.toList.isSuffixOf s.toList

def trimSuffix (s ending : String) : String :=
  if hasSuffix s ending then String.ofList (s.toList.take (s.toList.length - ending.toList.length))
  else s

def splitOn (s : String) (separator : Char) : List String :=
  (s.toList.splitOn separator).map String.ofList

/-- What comes before the first occurrence, where there is one. -/
def beforeChars (sub : List Char) : List Char → List Char
  | [] => []
  | c :: rest => if sub.isPrefixOf (c :: rest) then [] else c :: beforeChars sub rest

def before (s sub : String) : String := String.ofList (beforeChars sub.toList s.toList)

def join (parts : List String) (separator : String) : String := separator.intercalate parts

end Sub2api.Go

/-!
### The starts of strings

What is left of a start when the white space around a string is trimmed.
-/

namespace Sub2api.Go

theorem hasPrefix_iff {s start : String} : hasPrefix s start = true ↔ start.toList <+: s.toList :=
  List.isPrefixOf_iff_prefix

/-- A start without white space stays one. -/
theorem hasPrefix_trimSpace {s start : String} (starts : hasPrefix s start = true)
    (printed : NoBlank start) : hasPrefix (trimSpace s) start = true := by
  rw [hasPrefix_iff] at starts ⊢
  obtain ⟨rest, spelled⟩ := starts
  have kept : ∀ chars : List Char, (∀ c ∈ chars, isSpace c = false) → ∀ after,
      chars ≠ [] → (chars ++ after).dropWhile isSpace = chars ++ after := by
    intro chars blankless after some_
    cases chars with
    | nil => exact absurd rfl some_
    | cons c chars =>
      rw [List.cons_append, List.dropWhile_cons_of_neg]
      simp [blankless c (List.mem_cons_self ..)]
  cases empty : start.toList with
  | nil => exact List.nil_prefix
  | cons c chars =>
    have some_ : start.toList ≠ [] := by simp [empty]
    have blankless : ∀ c ∈ start.toList.reverse, isSpace c = false := by
      intro c mem
      exact printed c (List.mem_reverse.mp mem)
    have back := kept _ blankless [] (by simpa using some_)
    rw [List.append_nil] at back
    unfold trimSpace
    rw [String.toList_ofList, ← spelled, kept _ printed rest some_, List.reverse_append,
      List.dropWhile_append, back, ← empty]
    split
    · rw [List.reverse_reverse]
    · rw [List.reverse_append, List.reverse_reverse]
      exact List.prefix_append _ _

end Sub2api.Go
