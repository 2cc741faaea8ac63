import Spreadsheet.Proofs.Numerals.Digits
import Spreadsheet.Proofs.Outcome

/-!
Two's complement. The ten digits of a signed number are read back as the number, and digits that are
read as a number are its digits again.
-/

namespace Spreadsheet.Number.Radix

variable {r : Radix} {n : Int} {m : Nat}

theorem two_le_base (r : Radix) : 2 ≤ r.base := by
  cases r <;> decide

theorem base_le (r : Radix) : r.base ≤ 36 := by
  cases r <;> decide

theorem two_mul_half (r : Radix) : 2 * (r.modulus / 2) = r.modulus := by
  cases r <;> rfl

theorem half_pos (r : Radix) : 0 < r.modulus / 2 := by
  cases r <;> decide

theorem half_lt (r : Radix) : r.modulus / 2 < 2 ^ 53 := by
  cases r <;> decide

/-- Nine digits are not enough for the half. -/
theorem pow_nine_le_half (r : Radix) : r.base ^ 9 ≤ r.modulus / 2 := by
  cases r <;> decide

theorem holds_iff : r.holds n = true ↔
    -((r.modulus / 2 : Nat) : Int) ≤ n ∧ n < (r.modulus / 2 : Nat) := by
  rw [holds, Bool.and_eq_true, decide_eq_true_iff, decide_eq_true_iff]
  rfl

theorem natAbs_lt_of_holds (h : r.holds n = true) : n.natAbs < 2 ^ 53 := by
  have hhalf := r.half_lt
  obtain ⟨hlow, hhigh⟩ := holds_iff.1 h
  omega

/-! ### Signed and unsigned numbers -/

/-- The signed number that ten digits stand for. -/
def signed (r : Radix) (m : Nat) : Int := if m < r.modulus / 2 then m else m - r.modulus

theorem emod_of_holds (h : r.holds n = true) :
    n % r.modulus = if n < 0 then n + r.modulus else n := by
  have hhalf := r.two_mul_half
  obtain ⟨hlow, hhigh⟩ := holds_iff.1 h
  split
  · rw [← Int.add_emod_right, Int.emod_eq_of_lt (by omega) (by omega)]
  · exact Int.emod_eq_of_lt (by omega) (by omega)

theorem emod_lt (r : Radix) (n : Int) : (n % r.modulus).toNat < r.modulus := by
  have hpos : 0 < r.modulus := by
    have hhalf := r.half_pos
    omega
  have hlt := Int.emod_lt_of_pos n (Int.natCast_pos.2 hpos)
  have hnonneg := Int.emod_nonneg n (Int.natCast_ne_zero.2 (Nat.ne_of_gt hpos))
  omega

theorem signed_emod (h : r.holds n = true) : r.signed (n % r.modulus).toNat = n := by
  have hhalf := r.two_mul_half
  obtain ⟨hlow, hhigh⟩ := holds_iff.1 h
  rw [emod_of_holds h, signed]
  split <;> split <;> omega

theorem holds_signed (h : m < r.modulus) : r.holds (r.signed m) = true := by
  have hhalf := r.two_mul_half
  rw [holds_iff, signed]
  split <;> omega

theorem signed_emod_modulus (h : m < r.modulus) : (r.signed m % r.modulus).toNat = m := by
  rw [emod_of_holds (holds_signed h), signed]
  split <;> split <;> omega

/-! ### Digits -/

theorem decode?_eq_some_iff {text : List Char} : r.decode? text = some n ↔
    (Unicode.trim text).length ≤ 10 ∧
      ∃ m, ofRadix? r.base (Unicode.trim text) = some m ∧ r.signed m = n := by
  rw [decode?]
  split
  · next hlong => exact ⟨nofun, fun h => absurd h.1 (by omega)⟩
  · next hshort =>
    rw [Option.map_eq_some_iff]
    exact ⟨fun h => ⟨by omega, h⟩, fun h => h.2⟩

/-- Up to ten digits are read, in capitals or not, and nothing else. -/
theorem isSome_decode?_iff {text : List Char} : (r.decode? text).isSome = true ↔
    (Unicode.trim text).length ≤ 10 ∧
      ∀ c ∈ Unicode.trim text, (digitIn? r.base c).isSome = true := by
  rw [← isSome_ofRadix?_iff]
  simp only [Option.isSome_iff_exists, decode?_eq_some_iff]
  constructor
  · rintro ⟨n, hlength, m, hm, -⟩
    exact ⟨hlength, m, hm⟩
  · rintro ⟨hlength, m, hm⟩
    exact ⟨_, hlength, m, hm, rfl⟩

theorem lt_modulus_of_decode? {text : List Char} (hlength : text.length ≤ 10)
    (h : ofRadix? r.base text = some m) : m < r.modulus :=
  Nat.lt_of_lt_of_le (ofRadix?_lt h)
    (Nat.pow_le_pow_right (Nat.lt_of_lt_of_le Nat.two_pos r.two_le_base) hlength)

theorem holds_of_decode? {text : List Char} (h : r.decode? text = some n) : r.holds n = true := by
  obtain ⟨hlength, m, hm, rfl⟩ := decode?_eq_some_iff.1 h
  exact holds_signed (lt_modulus_of_decode? hlength hm)

theorem decode?_encode (h : r.holds n = true) {width : Nat} (hwidth : width ≤ 10) :
    r.decode? (padZeros width (r.encode n)) = some n := by
  have hread : ofRadix? r.base (padZeros width (r.encode n)) = some (n % r.modulus).toNat := by
    rw [ofRadix?_padZeros (Nat.lt_of_lt_of_le Nat.two_pos r.two_le_base)]
    exact ofRadix?_toRadix r.two_le_base r.base_le _
  have hdigits : (r.encode n).length ≤ 10 := length_toRadix_le (by decide) (r.emod_lt n)
  rw [decode?_eq_some_iff, trim_of_ofRadix? hread]
  refine ⟨?_, _, hread, signed_emod h⟩
  rw [padZeros, List.length_append, List.length_replicate]
  omega

/-- Digits that are read as a number are its digits again, in capitals. Those of a negative number
are ten, and the others lose the zeros in front. -/
theorem encode_of_decode? {text : List Char} (h : r.decode? text = some n) :
    r.encode n = (if n < 0 then Unicode.upper (Unicode.trim text)
      else stripZeros (Unicode.upper (Unicode.trim text))) ∧
    (n < 0 → (Unicode.trim text).length = 10) := by
  obtain ⟨hlength, m, hm, rfl⟩ := decode?_eq_some_iff.1 h
  have hlt := lt_modulus_of_decode? hlength hm
  have hdigits := toRadix_of_ofRadix? r.two_le_base hm
  have hsign : r.signed m < 0 ↔ r.modulus / 2 ≤ m := by
    have hhalf := r.two_mul_half
    rw [signed]
    split <;> omega
  -- numbers from the half on do not have less than ten digits
  have hmany {cs : List Char} (hcs : ofRadix? r.base cs = some m) (hm : r.modulus / 2 ≤ m) :
      10 ≤ cs.length := by
    have hpow : r.base ^ 9 < r.base ^ cs.length :=
      Nat.lt_of_le_of_lt (Nat.le_trans r.pow_nine_le_half hm) (ofRadix?_lt hcs)
    exact (Nat.pow_lt_pow_iff_right r.two_le_base).1 hpow
  rw [encode, signed_emod_modulus hlt, hdigits]
  refine ⟨?_, fun hneg => Nat.le_antisymm hlength (hmany hm (hsign.1 hneg))⟩
  split
  · next hneg =>
    have hhalf := hsign.1 hneg
    have hupper : (Unicode.upper (Unicode.trim text)).length = (Unicode.trim text).length := by
      rw [upper_of_ofRadix? hm, List.length_map]
    have hstripped := hmany (ofRadix?_toRadix r.two_le_base r.base_le m) hhalf
    have hten := hmany hm hhalf
    rw [hdigits] at hstripped
    exact stripZeros_eq_self (by omega) (by omega)
  · rfl

end Spreadsheet.Number.Radix
