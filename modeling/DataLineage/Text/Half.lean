/-!
# Halves of surrogate pairs

A document can write one half of a UTF-16 surrogate pair as a character of its own, and two halves
in a row stay two characters. `Char` has no halves, so one is kept as the private character that
lies `halfOffset` above it. `codePoint` tells which code point a character stands for; texts are
ordered by what their characters stand for.

* `codePoint_half` -- the character of a half stands for that half.
* `codePoint_of_le` -- below the private plane every character stands for itself.
* `order_eq_lt_iff`, `order_self` -- the order of texts is that of their code points.
-/

namespace DataLineage.Text

/-- How far above a half its character lies. -/
def halfOffset : Nat := 0x100000

/-- Is the code point a half of a surrogate pair? -/
def isHalf (n : Nat) : Bool := 0xD800 ≤ n && n < 0xE000

/-- The character that stands for a half. -/
def half (n : Nat) : Char := Char.ofNat (halfOffset + n)

/-- The code point that a character stands for. -/
def codePoint (c : Char) : Nat :=
  if isHalf (c.toNat - halfOffset) then c.toNat - halfOffset else c.toNat

/-- **The character of a half stands for that half.** -/
theorem codePoint_half (n : Nat) (h : isHalf n = true) : codePoint (half n) = n := by
  have hn : 0xD800 ≤ n ∧ n < 0xE000 := by simpa [isHalf] using h
  have hv : (halfOffset + n).isValidChar := by
    unfold halfOffset
    right; constructor <;> omega
  have ht : (half n).toNat = halfOffset + n := by
    unfold half Char.ofNat
    rw [dif_pos hv]
    rfl
  simp [codePoint, ht, h]

/-- Below the private plane every character stands for itself. -/
theorem codePoint_of_le (c : Char) (h : c.toNat ≤ halfOffset) : codePoint c = c.toNat := by
  have h0 : c.toNat - halfOffset = 0 := by omega
  simp [codePoint, h0, isHalf]

/-- The order of two lists of characters, code point by code point. -/
def orderOf : List Char → List Char → Ordering
  | [], [] => .eq
  | [], _ :: _ => .lt
  | _ :: _, [] => .gt
  | c :: cs, d :: ds =>
    if codePoint c < codePoint d then .lt
    else if codePoint d < codePoint c then .gt
    else orderOf cs ds

/-- **The order of two texts**, code point by code point. -/
def order (a b : String) : Ordering := orderOf a.toList b.toList

/-- The code points of a text. -/
def codePoints (s : String) : List Nat := s.toList.map codePoint

theorem orderOf_eq_lt_iff (cs ds : List Char) :
    orderOf cs ds = .lt ↔ cs.map codePoint < ds.map codePoint := by
  induction cs generalizing ds with
  | nil => cases ds <;> simp [orderOf]
  | cons c cs ih =>
    cases ds with
    | nil => simp [orderOf]
    | cons d ds =>
      simp only [orderOf, List.map_cons, List.cons_lt_cons_iff, ← ih]
      rcases Nat.lt_trichotomy (codePoint c) (codePoint d) with h | h | h
      · simp [h]
      · simp [h]
      · simp [h, Nat.lt_asymm h, Nat.ne_of_gt h]

/-- **A text is below another exactly when its code points are.** -/
theorem order_eq_lt_iff (a b : String) : order a b = .lt ↔ codePoints a < codePoints b :=
  orderOf_eq_lt_iff ..

theorem orderOf_self (cs : List Char) : orderOf cs cs = .eq := by
  induction cs with
  | nil => rfl
  | cons c cs ih => simp [orderOf, ih]

/-- A text is neither below nor above itself. -/
theorem order_self (a : String) : order a a = .eq := orderOf_self _

end DataLineage.Text
