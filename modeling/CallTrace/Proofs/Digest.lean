import CallTrace.Native
import Mathlib.Algebra.Group.Nat.Defs
import Mathlib.Logic.Function.Basic

/-!
# Hashes that are never equal

A digest loses nothing on the way: a word that was added can be subtracted again, multiplying by an
odd number can be undone, and so can a rotation. So all integers have different hashes, and every
hash is the hash of one. The other values that are fed as one word or none have small words, and the
numbers of their kinds are spread so far apart that no small word reaches from one to another.

* `absorb_bijective`, `finish_bijective` — a digest tells the word it has taken in last
* `hash_int_bijective` — every hash is the hash of one integer
* `spread_inj` — the kinds are far apart
* `hash_inj_of_isNarrow` — values with small words have different hashes
-/

namespace CallTrace

namespace Digest

/-! ## Multiplying and adding -/

/-- Undoes multiplying by the multiplier. -/
def unmultiplier : UInt64 := 0x781494a55daaed0d

theorem multiplier_mul_unmultiplier : multiplier * unmultiplier = 1 := by decide

theorem mul_multiplier_mul_unmultiplier (x : UInt64) : x * multiplier * unmultiplier = x := by
  rw [UInt64.mul_assoc, multiplier_mul_unmultiplier, UInt64.mul_one]

theorem mul_unmultiplier_mul_multiplier (x : UInt64) : x * unmultiplier * multiplier = x := by
  rw [UInt64.mul_assoc, UInt64.mul_comm unmultiplier, multiplier_mul_unmultiplier, UInt64.mul_one]

/-- The word that leads from one digest to another. -/
def wordBetween (before after : Digest) : UInt64 :=
  after.state * unmultiplier - before.state

theorem wordBetween_absorb (d : Digest) (word : UInt64) :
    wordBetween d (d.absorb word) = word := by
  unfold wordBetween absorb
  rw [mul_multiplier_mul_unmultiplier, UInt64.add_comm, UInt64.add_sub_cancel]

theorem absorb_wordBetween (before after : Digest) :
    before.absorb (wordBetween before after) = after := by
  unfold wordBetween absorb
  rw [UInt64.add_comm, UInt64.sub_add_cancel, mul_unmultiplier_mul_multiplier]

theorem absorb_bijective (d : Digest) : Function.Bijective d.absorb :=
  Function.bijective_iff_has_inverse.mpr
    ⟨wordBetween d, wordBetween_absorb d, absorb_wordBetween d⟩

/-! ## Rotating -/

/-- What is shifted out at one end comes in at the other. -/
theorem toNat_rotate (x : UInt64) {left right : UInt64} (hleft : left.toNat < 64)
    (hright : right.toNat < 64) (h : right.toNat + left.toNat = 64) :
    (x <<< left ||| x >>> right).toNat =
      x.toNat % 2 ^ right.toNat * 2 ^ left.toNat + x.toNat / 2 ^ right.toNat := by
  have hsize : 2 ^ 64 = 2 ^ right.toNat * 2 ^ left.toNat := by rw [← Nat.pow_add, h]
  have hlow : x.toNat <<< left.toNat % 2 ^ 64 = (x.toNat % 2 ^ right.toNat) <<< left.toNat := by
    rw [Nat.shiftLeft_eq, Nat.shiftLeft_eq, hsize, Nat.mul_mod_mul_right]
  have hhigh : x.toNat >>> right.toNat < 2 ^ left.toNat := by
    rw [Nat.shiftRight_eq_div_pow]
    exact Nat.div_lt_of_lt_mul (hsize ▸ x.toNat_lt)
  rw [UInt64.toNat_or, UInt64.toNat_shiftLeft, UInt64.toNat_shiftRight, Nat.mod_eq_of_lt hleft,
    Nat.mod_eq_of_lt hright, hlow, ← Nat.shiftLeft_add_eq_or_of_lt hhigh, Nat.shiftLeft_eq,
    Nat.shiftRight_eq_div_pow]

/-- The digest that a hash was made of. -/
def unfinish (hash : UInt64) : Digest :=
  ⟨(hash <<< 38) ||| (hash >>> 26)⟩

theorem toNat_finish (d : Digest) :
    d.finish.toNat = d.state.toNat % 2 ^ 38 * 2 ^ 26 + d.state.toNat / 2 ^ 38 :=
  toNat_rotate d.state (by decide) (by decide) (by decide)

theorem toNat_state_unfinish (hash : UInt64) :
    (unfinish hash).state.toNat = hash.toNat % 2 ^ 26 * 2 ^ 38 + hash.toNat / 2 ^ 26 :=
  toNat_rotate hash (by decide) (by decide) (by decide)

theorem unfinish_finish (d : Digest) : unfinish d.finish = d := by
  have hlt : d.state.toNat < 2 ^ 64 := d.state.toNat_lt
  have hstate : (unfinish d.finish).state = d.state := by
    rw [← UInt64.toNat_inj, toNat_state_unfinish, toNat_finish]
    omega
  exact congrArg Digest.mk hstate

theorem finish_unfinish (hash : UInt64) : (unfinish hash).finish = hash := by
  have hlt : hash.toNat < 2 ^ 64 := hash.toNat_lt
  rw [← UInt64.toNat_inj, toNat_finish, toNat_state_unfinish]
  omega

theorem finish_bijective : Function.Bijective finish :=
  Function.bijective_iff_has_inverse.mpr ⟨unfinish, unfinish_finish, finish_unfinish⟩

end Digest

/-! ## Values -/

namespace Value

theorem toInt64_bijective : Function.Bijective UInt64.toInt64 :=
  Function.bijective_iff_has_inverse.mpr
    ⟨Int64.toUInt64, UInt64.toUInt64_toInt64, Int64.toInt64_toUInt64⟩

theorem toUInt64_bijective : Function.Bijective Int64.toUInt64 :=
  Function.bijective_iff_has_inverse.mpr
    ⟨UInt64.toInt64, Int64.toInt64_toUInt64, UInt64.toUInt64_toInt64⟩

/-- **Every hash is the hash of one integer.** -/
theorem hash_int_bijective : Function.Bijective fun n : Int64 => (Value.int n).hash := by
  let kind : Digest := Digest.absorb {} 2
  exact toInt64_bijective.comp <| Digest.finish_bijective.comp <|
    kind.absorb_bijective.comp toUInt64_bijective

/-- The values that are told from others of their kind by 32 bits at most. -/
def isNarrow : Value → Bool
  | .nil | .bool _ | .symbol _ | .function _ => true
  | .int _ | .str _ => false

/-- The word that a narrow value is fed as, and zero if there is none. -/
def narrowWord (v : Value) : UInt64 := v.payload.headD 0

variable {v w : Value}

theorem toNat_narrowWord_lt (h : v.isNarrow = true) : v.narrowWord.toNat < 2 ^ 32 := by
  cases v with
  | nil => decide
  | bool b => cases b <;> decide
  | symbol name => exact name.raw.toNat_lt
  | function id => exact id.raw.toNat_lt
  | _ => contradiction

theorem toNat_kindIndex_le (v : Value) : v.kindIndex.toNat ≤ 5 := by
  cases v <;> simp [kindIndex]

/-- A narrow value is hashed from its kind and its word; without a word it is as if it had been
zero. -/
theorem hash_of_isNarrow (h : v.isNarrow = true) :
    v.hash = (Digest.absorb ⟨v.kindIndex * Digest.multiplier⟩ v.narrowWord).finish.toInt64 := by
  cases v with
  | nil => rfl
  | bool b => rfl
  | symbol name => rfl
  | function id => rfl
  | _ => contradiction

/-- No multiple of the multiplier comes near zero, for as many as there are kinds. -/
theorem multiple_far_from_zero : ∀ j < 6, j ≠ 0 →
    2 ^ 32 ≤ j * Digest.multiplier.toNat % 2 ^ 64 ∧
      j * Digest.multiplier.toNat % 2 ^ 64 ≤ 2 ^ 64 - 2 ^ 32 := by
  decide

section

variable {kind kind' word word' : UInt64}

/-- No small word reaches from one kind to a later one. -/
theorem spread_ne_of_lt (hlt : kind.toNat < kind'.toNat) (hkind' : kind'.toNat ≤ 5)
    (hword : word.toNat < 2 ^ 32) (hword' : word'.toNat < 2 ^ 32) :
    kind * Digest.multiplier + word ≠ kind' * Digest.multiplier + word' := by
  intro h
  have hsum := congrArg UInt64.toNat h
  simp only [UInt64.toNat_add, UInt64.toNat_mul] at hsum
  generalize hm : Digest.multiplier.toNat = m at hsum
  -- the distance between the kinds is a multiple of the multiplier itself
  obtain ⟨j, hj⟩ := Nat.exists_eq_add_of_lt hlt
  obtain ⟨hlow, hhigh⟩ := multiple_far_from_zero (j + 1) (by omega) (Nat.succ_ne_zero j)
  have hkinds : kind'.toNat * m = kind.toNat * m + (j + 1) * m := by
    rw [hj, Nat.add_assoc, Nat.add_mul]
  rw [hm] at hlow hhigh
  rw [hkinds] at hsum
  omega

/-- **The kinds are far apart.** -/
theorem spread_inj (hkind : kind.toNat ≤ 5) (hkind' : kind'.toNat ≤ 5)
    (hword : word.toNat < 2 ^ 32) (hword' : word'.toNat < 2 ^ 32)
    (h : kind * Digest.multiplier + word = kind' * Digest.multiplier + word') :
    kind = kind' ∧ word = word' := by
  rcases Nat.lt_trichotomy kind.toNat kind'.toNat with hlt | heq | hlt
  · exact absurd h (spread_ne_of_lt hlt hkind' hword hword')
  · obtain rfl := UInt64.toNat_inj.mp heq
    exact ⟨rfl, (UInt64.add_right_inj _).mp h⟩
  · exact absurd h.symm (spread_ne_of_lt hlt hkind hword' hword)

end

/-- The narrow value of a kind with a word. -/
def ofWord (kind word : UInt64) : Value :=
  if kind = 0 then .nil
  else if kind = 1 then .bool (word = 1)
  else if kind = 4 then .symbol ⟨word.toUInt32⟩
  else .function ⟨word.toUInt32⟩

/-- A narrow value is known by its kind and its word. -/
theorem ofWord_narrowWord (h : v.isNarrow = true) : ofWord v.kindIndex v.narrowWord = v := by
  cases v with
  | nil => rfl
  | bool b => cases b <;> rfl
  | symbol name => exact congrArg (fun raw => symbol ⟨raw⟩) (UInt32.toUInt32_toUInt64 name.raw)
  | function id => exact congrArg (fun raw => function ⟨raw⟩) (UInt32.toUInt32_toUInt64 id.raw)
  | _ => contradiction

/-- **Narrow values have different hashes.** -/
theorem hash_inj_of_isNarrow (hv : v.isNarrow = true) (hw : w.isNarrow = true)
    (h : v.hash = w.hash) : v = w := by
  rw [hash_of_isNarrow hv, hash_of_isNarrow hw] at h
  have hdigest := Digest.finish_bijective.injective (toInt64_bijective.injective h)
  have hstate := congrArg Digest.state hdigest
  have hsum := congrArg (· * Digest.unmultiplier) hstate
  simp only [Digest.absorb, Digest.mul_multiplier_mul_unmultiplier] at hsum
  obtain ⟨hkind, hword⟩ := spread_inj v.toNat_kindIndex_le w.toNat_kindIndex_le
    (toNat_narrowWord_lt hv) (toNat_narrowWord_lt hw) hsum
  rw [← ofWord_narrowWord hv, hkind, hword, ofWord_narrowWord hw]

end Value

/-- **A hash tells values apart** as far as they have a fixed size. The hash function takes any
value and gives an integer. Every integer is the hash of exactly one integer. And of nil, the truth
values, the symbols and the functions, whatever their numbers, no two have the same hash. -/
theorem Native.hash_tells_apart (scope : Scope) (site : FormId) :
    (∀ v, hash.run scope site [v] = .ok (.int v.hash)) ∧
      (∀ r : Int64, ∃! n : Int64, hash.run scope site [.int n] = .ok (.int r)) ∧
      ∀ v w : Value, v.isNarrow = true → w.isNarrow = true →
        hash.run scope site [v] = hash.run scope site [w] → v = w := by
  refine ⟨fun v => rfl, fun r => ?_, fun v w hv hw h => ?_⟩
  · obtain ⟨n, hn, hunique⟩ := Value.hash_int_bijective.existsUnique r
    refine ⟨n, congrArg (fun r => Except.ok (Value.int r)) hn, fun m hm => hunique m ?_⟩
    exact Value.int.inj (Except.ok.inj hm)
  · exact Value.hash_inj_of_isNarrow hv hw (Value.int.inj (Except.ok.inj h))

/-- A symbol and a function of the largest number there is, which stands for no function. -/
theorem Native.hash_tells_apart_last_number :
    let symbol : Value := .symbol ⟨4294967295⟩
    let function : Value := .function .nil
    symbol.isNarrow = true ∧ function.isNarrow = true ∧
      hash.run .new .nil [symbol] ≠ hash.run .new .nil [function] ∧
      ∃ n : Int64, hash.run .new .nil [.int n] = hash.run .new .nil [symbol] := by
  intro symbol function
  obtain ⟨hruns, hints, hnarrow⟩ := hash_tells_apart .new .nil
  obtain ⟨n, hn, -⟩ := hints symbol.hash
  refine ⟨rfl, rfl, fun h => ?_, n, hn.trans (hruns symbol).symm⟩
  have heq : Value.symbol ⟨4294967295⟩ = .function .nil := hnarrow symbol function rfl rfl h
  contradiction

end CallTrace
