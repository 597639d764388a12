import Mathlib.Tactic.NormNum

/-!
# Base 64

Three bytes are written as four characters of the standard alphabet, and padding
fills the last four. A reader leaves out white space.
-/

namespace CadPlot.Base64

/-- The character of six bits. -/
def sextet (n : Nat) : Char :=
  if n < 26 then Char.ofNat (65 + n) else if n < 52 then Char.ofNat (71 + n)
  else if n < 62 then Char.ofNat (n - 4) else if n = 62 then '+' else '/'

def value (c : Char) : Option Nat :=
  if c.isUpper then some (c.toNat - 65)
  else if c.isLower then some (c.toNat - 71)
  else if c.isDigit then some (c.toNat + 4)
  else if c = '+' then some 62
  else if c = '/' then some 63
  else none

def isBlank (c : Char) : Bool := c = ' ' || c = '\t' || c = '\r' || c = '\n'

def encode : List UInt8 → List Char
  | [] => []
  | [a] => [sextet (a.toNat / 4), sextet (a.toNat % 4 * 16), '=', '=']
  | [a, b] => [sextet (a.toNat / 4), sextet (a.toNat % 4 * 16 + b.toNat / 16),
      sextet (b.toNat % 16 * 4), '=']
  | a :: b :: c :: rest => sextet (a.toNat / 4) :: sextet (a.toNat % 4 * 16 + b.toNat / 16) ::
      sextet (b.toNat % 16 * 4 + c.toNat / 64) :: sextet (c.toNat % 64) :: encode rest

/-- The bytes of four characters. -/
def quadruple (w x y z : Char) : Option (List UInt8) :=
  (value w).bind fun a => (value x).bind fun b => (value y).bind fun c => (value z).map fun d =>
    [UInt8.ofNat (a * 4 + b / 16), UInt8.ofNat (b % 16 * 16 + c / 4), UInt8.ofNat (c % 4 * 64 + d)]

def last (w x y z : Char) : Option (List UInt8) :=
  if z ≠ '=' then quadruple w x y z
  else if y ≠ '=' then (quadruple w x y 'A').map (·.take 2)
  else (quadruple w x 'A' 'A').map (·.take 1)

def decodeQuadruples : List Char → Option (List UInt8)
  | [] => some []
  | [w, x, y, z] => last w x y z
  | w :: x :: y :: z :: rest =>
    (quadruple w x y z).bind fun bytes => (decodeQuadruples rest).map (bytes ++ ·)
  | _ => none

def decode (text : List Char) : Option (List UInt8) :=
  decodeQuadruples (text.filter fun c => !isBlank c)

theorem value_sextet : ∀ n < 64, value (sextet n) = some n := by decide

theorem sextet_ne : ∀ n < 64, sextet n ≠ '=' ∧ isBlank (sextet n) = false := by decide

theorem quadruple_sextets {a b c d : Nat} (ha : a < 64) (hb : b < 64) (hc : c < 64) (hd : d < 64) :
    quadruple (sextet a) (sextet b) (sextet c) (sextet d) = some [UInt8.ofNat (a * 4 + b / 16),
      UInt8.ofNat (b % 16 * 16 + c / 4), UInt8.ofNat (c % 4 * 64 + d)] := by
  rw [quadruple, value_sextet a ha, value_sextet b hb, value_sextet c hc, value_sextet d hd]
  rfl

/-- The bits of three bytes come together again. -/
theorem quadruple_bytes (a b c : UInt8) :
    quadruple (sextet (a.toNat / 4)) (sextet (a.toNat % 4 * 16 + b.toNat / 16))
      (sextet (b.toNat % 16 * 4 + c.toNat / 64)) (sextet (c.toNat % 64)) = some [a, b, c] := by
  have ha := a.toNat_lt
  have hb := b.toNat_lt
  have hc := c.toNat_lt
  rw [quadruple_sextets (by omega) (by omega) (by omega) (by omega)]
  have hfirst : a.toNat / 4 * 4 + (a.toNat % 4 * 16 + b.toNat / 16) / 16 = a.toNat := by omega
  have hsecond : (a.toNat % 4 * 16 + b.toNat / 16) % 16 * 16 +
      (b.toNat % 16 * 4 + c.toNat / 64) / 4 = b.toNat := by omega
  have hthird : (b.toNat % 16 * 4 + c.toNat / 64) % 4 * 64 + c.toNat % 64 = c.toNat := by omega
  rw [hfirst, hsecond, hthird, UInt8.ofNat_toNat, UInt8.ofNat_toNat, UInt8.ofNat_toNat]

theorem encode_solid (bytes : List UInt8) : ∀ c ∈ encode bytes, isBlank c = false := by
  induction bytes using encode.induct with
  | case1 => exact fun c hc => absurd hc List.not_mem_nil
  | case2 a =>
    have ha := a.toNat_lt
    simp only [encode, List.forall_mem_cons]
    exact ⟨(sextet_ne _ (by omega)).2, (sextet_ne _ (by omega)).2, rfl, rfl,
      fun c hc => absurd hc List.not_mem_nil⟩
  | case3 a b =>
    have ha := a.toNat_lt
    have hb := b.toNat_lt
    simp only [encode, List.forall_mem_cons]
    exact ⟨(sextet_ne _ (by omega)).2, (sextet_ne _ (by omega)).2, (sextet_ne _ (by omega)).2, rfl,
      fun c hc => absurd hc List.not_mem_nil⟩
  | case4 a b c rest ih =>
    have ha := a.toNat_lt
    have hb := b.toNat_lt
    have hc := c.toNat_lt
    simp only [encode, List.forall_mem_cons]
    exact ⟨(sextet_ne _ (by omega)).2, (sextet_ne _ (by omega)).2, (sextet_ne _ (by omega)).2,
      (sextet_ne _ (by omega)).2, ih⟩

theorem decodeQuadruples_cons {w x y z : Char} (hz : z ≠ '=') (rest : List Char) :
    decodeQuadruples (w :: x :: y :: z :: rest) = (quadruple w x y z).bind fun bytes =>
      (decodeQuadruples rest).map (bytes ++ ·) := by
  cases rest with
  | nil =>
    change last w x y z = _
    rw [last, if_pos hz]
    cases quadruple w x y z <;> simp [decodeQuadruples]
  | cons c rest => rfl

theorem decodeQuadruples_encode (bytes : List UInt8) :
    decodeQuadruples (encode bytes) = some bytes := by
  induction bytes using encode.induct with
  | case1 => rfl
  | case2 a =>
    have hread : quadruple (sextet (a.toNat / 4)) (sextet (a.toNat % 4 * 16)) 'A' 'A' =
        some [a, 0, 0] := quadruple_bytes a 0 0
    rw [encode, decodeQuadruples, last, if_neg (fun h => h rfl), if_neg (fun h => h rfl), hread]
    rfl
  | case3 a b =>
    have hread : quadruple (sextet (a.toNat / 4)) (sextet (a.toNat % 4 * 16 + b.toNat / 16))
        (sextet (b.toNat % 16 * 4)) 'A' = some [a, b, 0] := quadruple_bytes a b 0
    have hb := b.toNat_lt
    rw [encode, decodeQuadruples, last, if_neg (fun h => h rfl),
      if_pos (sextet_ne _ (by omega)).1, hread]
    rfl
  | case4 a b c rest ih =>
    have hc := c.toNat_lt
    rw [encode, decodeQuadruples_cons (sextet_ne _ (by omega)).1, quadruple_bytes, ih]
    rfl

theorem decode_encode (bytes : List UInt8) : decode (encode bytes) = some bytes := by
  rw [decode, List.filter_eq_self.mpr fun c hc => by rw [encode_solid bytes c hc]; rfl]
  exact decodeQuadruples_encode bytes

end CadPlot.Base64
