import Mathlib.Data.List.Basic

/-! Text written by format strings. Which conversion a directive names makes no difference
here: the arguments come as the texts that their conversions give. -/

abbrev Text := List Char

namespace TextFormat

inductive Piece where
  | lit (c : Char)
  | arg
  deriving DecidableEq

def pieces : List Char → List Piece
  | [] => []
  | [c] => [.lit c]
  | c :: d :: fmt => if c = '%' then .arg :: pieces fmt else .lit c :: pieces (d :: fmt)

def render : List Piece → List Text → Text
  | [], _ => []
  | .lit c :: ps, args => c :: render ps args
  | .arg :: ps, a :: args => a ++ render ps args
  | .arg :: ps, [] => render ps []

def format (fmt : String) (args : List Text) : Text := render (pieces fmt.toList) args

/-- `%u`. -/
def unsigned (n : Nat) : Text := Nat.toDigits 10 n

/-- `%d` of 32 bits in two's complement. -/
def signed (x : UInt32) : Text :=
  if x.toNat < 0x80000000 then unsigned x.toNat else '-' :: unsigned (0x100000000 - x.toNat)

/-! Reading a text back. -/

/-- No character of the text is one of `stops`. -/
def Free (stops : List Char) (t : Text) : Prop := ∀ c ∈ t, c ∉ stops

instance (stops : List Char) (t : Text) : Decidable (Free stops t) :=
  List.decidableBAll (fun c => c ∉ stops) t

def Piece.freeOf (stops : List Char) : Piece → Bool
  | .lit c => c ∉ stops
  | .arg => true

theorem render_free {stops : List Char} {ps : List Piece} {args : List Text}
    (literals : ps.all (Piece.freeOf stops) = true) (free : ∀ a ∈ args, Free stops a) :
    Free stops (render ps args) := by
  induction ps, args using render.induct with
  | case1 args => exact fun c member => (List.not_mem_nil member).elim
  | case2 c ps args ih =>
      rw [List.all_cons, Bool.and_eq_true] at literals
      intro d member
      rcases List.mem_cons.mp member with rfl | later
      · exact of_decide_eq_true literals.1
      · exact ih literals.2 free d later
  | case3 ps a args ih =>
      rw [List.all_cons, Bool.and_eq_true] at literals
      intro d member
      rcases List.mem_append.mp member with own | later
      · exact free a List.mem_cons_self d own
      · exact ih literals.2 (fun a member => free a (List.mem_cons_of_mem _ member)) d later
  | case4 ps ih =>
      rw [List.all_cons, Bool.and_eq_true] at literals
      exact ih literals.2 free

/-- A text without stops ends where the first stop stands. -/
theorem stop_inj {stops : List Char} {s t rest rest' : Text} {a b : Char} (first : Free stops s)
    (second : Free stops t) (stop : a ∈ stops) (stop' : b ∈ stops)
    (same : s ++ a :: rest = t ++ b :: rest') : s = t ∧ a = b ∧ rest = rest' := by
  induction s generalizing t with
  | nil =>
      cases t with
      | nil =>
          obtain ⟨head, tail⟩ := List.cons.inj same
          exact ⟨rfl, head, tail⟩
      | cons d t =>
          obtain ⟨head, -⟩ := List.cons.inj same
          exact absurd (head ▸ stop) (second d List.mem_cons_self)
  | cons c s ih =>
      cases t with
      | nil =>
          obtain ⟨head, -⟩ := List.cons.inj same
          exact absurd (head ▸ stop') (first c List.mem_cons_self)
      | cons d t =>
          obtain ⟨rfl, tail⟩ := List.cons.inj same
          obtain ⟨texts, stops'⟩ := ih (fun c member => first c (List.mem_cons_of_mem _ member))
            (fun c member => second c (List.mem_cons_of_mem _ member)) tail
          exact ⟨congrArg _ texts, stops'⟩

/-- Every argument is followed by a character it does not contain. -/
def Delimited : List Piece → List Text → Prop
  | [], args => args = []
  | .lit _ :: ps, args => Delimited ps args
  | .arg :: .lit c :: ps, a :: args => Free [c] a ∧ Delimited ps args
  | .arg :: .lit _ :: _, [] => False
  | .arg :: .arg :: _, _ => False
  | [.arg], _ => False

/-- What follows a format's text and the arguments in it can be told from the whole. -/
theorem render_inj {ps : List Piece} {args args' : List Text} {rest rest' : Text}
    (first : Delimited ps args) (second : Delimited ps args')
    (same : render ps args ++ rest = render ps args' ++ rest') : args = args' ∧ rest = rest' := by
  induction ps, args using Delimited.induct generalizing args' with
  | case1 args =>
      cases first
      cases second
      exact ⟨rfl, same⟩
  | case2 c ps args ih => exact ih first second (List.cons.inj same).2
  | case3 c ps a args ih =>
      cases args' with
      | nil => exact second.elim
      | cons a' args' =>
          rw [render, render, render, render, List.append_assoc, List.append_assoc] at same
          obtain ⟨head, -, tail⟩ := stop_inj first.1 second.1 List.mem_cons_self
            List.mem_cons_self same
          obtain ⟨later, left⟩ := ih first.2 second.2 tail
          exact ⟨by rw [head, later], left⟩
  | case4 => exact first.elim
  | case5 => exact first.elim
  | case6 => exact first.elim

theorem unsigned_inj {m n : Nat} (same : unsigned m = unsigned n) : m = n := by
  have numbers := congrArg (fun digits => Nat.ofDigitChars 10 digits 0) same
  simpa [unsigned] using numbers

theorem digit_of_unsigned {n : Nat} {c : Char} (member : c ∈ unsigned n) : c.isDigit = true :=
  Nat.isDigit_of_mem_toDigits (by decide) (by decide) member

theorem unsigned_free {stops : List Char} (none : stops.any Char.isDigit = false) (n : Nat) :
    Free stops (unsigned n) := by
  intro c member stop
  exact List.any_eq_false.mp none c stop (digit_of_unsigned member)

theorem signed_free {stops : List Char} (none : stops.any Char.isDigit = false)
    (minus : '-' ∉ stops) (x : UInt32) : Free stops (signed x) := by
  intro c member
  unfold signed at member
  split at member
  · exact unsigned_free none _ c member
  · rcases List.mem_cons.mp member with rfl | digit
    · exact minus
    · exact unsigned_free none _ c digit

theorem minus_not_unsigned {n : Nat} {t : Text} (same : unsigned n = '-' :: t) : False := by
  have digit := digit_of_unsigned (same ▸ List.mem_cons_self : '-' ∈ unsigned n)
  cases digit

theorem signed_inj {x y : UInt32} (same : signed x = signed y) : x = y := by
  have bound := x.toNat_lt
  have bound' := y.toNat_lt
  unfold signed at same
  split at same
  · split at same
    · exact UInt32.toNat_inj.mp (unsigned_inj same)
    · exact (minus_not_unsigned same).elim
  · split at same
    · exact (minus_not_unsigned same.symm).elim
    · have digits := unsigned_inj (List.cons.inj same).2
      exact UInt32.toNat_inj.mp (by omega)

end TextFormat
