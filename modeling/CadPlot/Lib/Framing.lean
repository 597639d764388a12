import Mathlib.Data.List.Basic
import Mathlib.Tactic.NormNum

/-!
# Encodings that end where they end

An encoding is delimited when what follows it cannot be mistaken for a part of
it: two encodings with anything behind them are the same bytes only if both the
values and the rest are the same. Fixed widths are delimited, a length in front
delimits any bytes, and delimited encodings compose.
-/

namespace CadPlot.Framing

variable {α β γ : Type}

/-- The front of the bytes determines the value, for the values with the property. -/
def Delimited (P : α → Prop) (enc : α → List γ) : Prop :=
  ∀ a b r s, P a → P b → enc a ++ r = enc b ++ s → a = b ∧ r = s

section Laws

variable {P : α → Prop} {Q : β → Prop} {enc : α → List γ} {enc' : β → List γ}

theorem Delimited.injective (h : Delimited P enc) {a b : α} (ha : P a) (hb : P b)
    (heq : enc a = enc b) : a = b :=
  (h a b [] [] ha hb (by simpa using heq)).1

/-- Values of one width are delimited. -/
theorem delimited_of_length {width : Nat} (hlen : ∀ a, P a → (enc a).length = width)
    (hinj : ∀ a b, P a → P b → enc a = enc b → a = b) : Delimited P enc := by
  intro a b r s ha hb heq
  obtain ⟨henc, hrest⟩ := List.append_inj heq ((hlen a ha).trans (hlen b hb).symm)
  exact ⟨hinj a b ha hb henc, hrest⟩

/-- One delimited value behind another. -/
theorem Delimited.pair (h : Delimited P enc) (h' : Delimited Q enc') :
    Delimited (fun x : α × β => P x.1 ∧ Q x.2) fun x => enc x.1 ++ enc' x.2 := by
  rintro ⟨a, a'⟩ ⟨b, b'⟩ r s ⟨ha, ha'⟩ ⟨hb, hb'⟩ heq
  simp only [List.append_assoc] at heq
  obtain ⟨rfl, hrest⟩ := h a b _ _ ha hb heq
  obtain ⟨rfl, hrs⟩ := h' a' b' _ _ ha' hb' hrest
  exact ⟨rfl, hrs⟩

/-- A record is delimited when its fields determine it and their encoding is. -/
theorem Delimited.record (h : Delimited P enc) (fields : β → α) (hP : ∀ x, Q x → P (fields x))
    (hinj : ∀ x y, Q x → Q y → fields x = fields y → x = y) :
    Delimited Q fun x => enc (fields x) := by
  intro x y r s hx hy heq
  obtain ⟨hfields, hrest⟩ := h _ _ r s (hP x hx) (hP y hy) heq
  exact ⟨hinj x y hx hy hfields, hrest⟩

/-- A length in front delimits any bytes. -/
theorem Delimited.framed {length : Nat → List γ} {bound : Nat}
    (hlength : Delimited (· < bound) length) (hinj : ∀ a b, P a → P b → enc a = enc b → a = b) :
    Delimited (fun a => P a ∧ (enc a).length < bound)
      fun a => length (enc a).length ++ enc a := by
  rintro a b r s ⟨ha, hla⟩ ⟨hb, hlb⟩ heq
  simp only [List.append_assoc] at heq
  obtain ⟨hlen, hrest⟩ := hlength _ _ _ _ hla hlb heq
  obtain ⟨henc, hrs⟩ := List.append_inj hrest hlen
  exact ⟨hinj a b ha hb henc, hrs⟩

/-- As many delimited values one behind the other. -/
theorem Delimited.items (h : Delimited P enc) {xs ys : List α} {r s : List γ}
    (hlen : xs.length = ys.length) (hx : ∀ x ∈ xs, P x) (hy : ∀ y ∈ ys, P y)
    (heq : xs.flatMap enc ++ r = ys.flatMap enc ++ s) : xs = ys ∧ r = s := by
  induction xs generalizing ys with
  | nil =>
    obtain rfl := List.eq_nil_of_length_eq_zero hlen.symm
    exact ⟨rfl, by simpa using heq⟩
  | cons x xs ih =>
    cases ys with
    | nil => cases hlen
    | cons y ys =>
      simp only [List.flatMap_cons, List.append_assoc] at heq
      obtain ⟨rfl, hrest⟩ := h x y _ _ (hx x List.mem_cons_self) (hy y List.mem_cons_self) heq
      obtain ⟨rfl, hrs⟩ := ih (Nat.succ.inj hlen) (fun z hz => hx z (List.mem_cons_of_mem _ hz))
        (fun z hz => hy z (List.mem_cons_of_mem _ hz)) hrest
      exact ⟨rfl, hrs⟩

/-- A count in front delimits a list. -/
theorem Delimited.counted (h : Delimited P enc) {count : Nat → List γ} {bound : Nat}
    (hcount : Delimited (· < bound) count) :
    Delimited (fun xs : List α => xs.length < bound ∧ ∀ x ∈ xs, P x)
      fun xs => count xs.length ++ xs.flatMap enc := by
  rintro xs ys r s ⟨hlx, hx⟩ ⟨hly, hy⟩ heq
  simp only [List.append_assoc] at heq
  obtain ⟨hlen, hrest⟩ := hcount _ _ _ _ hlx hly heq
  exact h.items hlen hx hy hrest

end Laws

/-- The bytes of a number, the most significant one first. -/
def bigEndian : Nat → Nat → List UInt8
  | 0, _ => []
  | width + 1, n => bigEndian width (n / 256) ++ [UInt8.ofNat n]

@[simp] theorem length_bigEndian (width n : Nat) : (bigEndian width n).length = width := by
  induction width generalizing n with
  | zero => rfl
  | succ width ih => simp [bigEndian, ih]

theorem bigEndian_injective (width : Nat) {n m : Nat} (hn : n < 256 ^ width) (hm : m < 256 ^ width)
    (h : bigEndian width n = bigEndian width m) : n = m := by
  induction width generalizing n m with
  | zero =>
    rw [Nat.pow_zero, Nat.lt_one_iff] at hn hm
    rw [hn, hm]
  | succ width ih =>
    obtain ⟨hfront, hlast⟩ := List.append_inj h (by simp)
    rw [Nat.pow_succ] at hn hm
    have hdiv := ih (Nat.div_lt_of_lt_mul (by rwa [Nat.mul_comm]))
      (Nat.div_lt_of_lt_mul (by rwa [Nat.mul_comm])) hfront
    have hmod : n % 256 = m % 256 := by
      simpa using congrArg UInt8.toNat (List.cons.inj hlast).1
    omega

theorem delimited_bigEndian (width : Nat) :
    Delimited (· < 256 ^ width) (bigEndian width) :=
  delimited_of_length (fun n _ => length_bigEndian width n)
    fun _ _ hn hm => bigEndian_injective width hn hm

end CadPlot.Framing
