import Linewise.Proofs.FiniteDoubles

/-! The bits of a finite double and its sign, mantissa and exponent determine each other: packing
undoes unpacking, and unpacking undoes packing for the mantissas and exponents that bits can hold.
So two finite doubles are the same if they unpack to the same number. -/
namespace Linewise.Double
open Float.Model Float.Model.UnpackedFloat

theorem toBitVec_ofBitVec (b : BitVec 1) : (Sign.ofBitVec b).toBitVec = b := by
  revert b
  decide

theorem ofBitVec_toBitVec (s : Sign) : Sign.ofBitVec s.toBitVec = s := by
  cases s <;> rfl

/-- The three fields lie next to each other and are all of the bits. -/
theorem packComponents_fields (b : BitVec Format.binary64.numBits) :
    packComponents Format.binary64 (Sign.ofBitVec (unpackSign b)) (unpackExponent b)
      (unpackMantissa b) = b := by
  rw [packComponents, toBitVec_ofBitVec]
  have upper : unpackSign b ++ unpackExponent b = BitVec.extractLsb' 52 12 b :=
    BitVec.extractLsb'_append_extractLsb'_eq_extractLsb' rfl
  have whole : BitVec.extractLsb' 52 12 b ++ unpackMantissa b = BitVec.extractLsb' 0 64 b :=
    BitVec.extractLsb'_append_extractLsb'_eq_extractLsb' rfl
  rw [upper, whole]
  exact BitVec.extractLsb'_eq_self

theorem unpackSign_packComponents (s : Sign) (exponent : BitVec 11) (fraction : BitVec 52) :
    unpackSign (packComponents Format.binary64 s exponent fraction) = s.toBitVec := by
  change BitVec.extractLsb' 63 1 (s.toBitVec ++ exponent ++ fraction) = _
  rw [BitVec.extractLsb'_append_eq_of_le (by decide)]
  exact (BitVec.extractLsb'_append_eq_of_le (by decide)).trans BitVec.extractLsb'_eq_self

/-- The mantissas and exponents of finite doubles. -/
structure Canonical (m : Nat) (e : Int) : Prop where
  positive : 0 < m
  most : e ≤ maxExponent
  form : m.log2 = 52 ∧ -1074 ≤ e ∨ m < 2 ^ 52 ∧ e = -1074

theorem Canonical.lt_two_pow {m : Nat} {e : Int} (canonical : Canonical m e) : m < 2 ^ 53 := by
  rcases canonical.form with ⟨normal, -⟩ | ⟨small, -⟩
  · exact ((Nat.log2_eq_iff (Nat.ne_of_gt canonical.positive)).mp normal).2
  · omega

theorem Canonical.least {m : Nat} {e : Int} (canonical : Canonical m e) : -1074 ≤ e := by
  rcases canonical.form with ⟨-, least⟩ | ⟨-, least⟩ <;> omega

theorem pack_unpack_bits {b : BitVec Format.binary64.numBits} (inside : unpackExponent b ≠ -1#_) :
    UnpackedFloat.pack Format.binary64 (UnpackedFloat.unpack Format.binary64 b) = b := by
  have split := packComponents_fields b
  have bound := unpackExponent_le inside
  unfold UnpackedFloat.unpack
  simp only [if_neg inside]
  split
  · rename_i zero
    split
    · rename_i none
      rw [zero, none] at split
      exact split
    · rename_i some
      have small : (unpackMantissa b).toNat.log2 ≠ 52 := by
        have nonzero : (unpackMantissa b).toNat ≠ 0 := fun same => some (BitVec.eq_of_toNat_eq same)
        exact Nat.ne_of_lt ((Nat.log2_lt nonzero).mpr (unpackMantissa b).isLt)
      rw [pack_finite, if_neg (by simp [zero, Format.exponentBias, maxExponent]), if_neg small,
        BitVec.ofNat_toNat, BitVec.setWidth_eq, ← zero]
      exact split
  · rename_i nonzero
    rw [pack_finite, if_neg (by simp [Format.exponentBias, maxExponent]; omega),
      if_pos (log2_implicit_append _)]
    have exponent : BitVec.ofNat 11 (((unpackExponent b).toNat : Int) -
        (Format.binary64.exponentBias + (52 : Nat)) + 1075).toNat = unpackExponent b := by
      rw [show ((unpackExponent b).toNat : Int) - (Format.binary64.exponentBias + (52 : Nat)) +
        1075 = (unpackExponent b).toNat by simp [Format.exponentBias], Int.toNat_natCast,
        BitVec.ofNat_toNat, BitVec.setWidth_eq]
    have fraction : BitVec.ofNat 52 (1#1 ++ unpackMantissa b).toNat = unpackMantissa b := by
      apply BitVec.eq_of_toNat_eq
      rw [toNat_implicit_append, BitVec.toNat_ofNat, Nat.add_mod_left]
      exact Nat.mod_eq_of_lt (unpackMantissa b).isLt
    rw [exponent, fraction]
    exact split

/-- A finite double is determined by its sign, mantissa and exponent. -/
theorem eq_of_unpack {x y : Float} (finite : x.isFinite = true)
    (same : x.toModel.unpack = y.toModel.unpack) : x = y := by
  have repacked {z : Float} (number : z.toModel.unpack.isFinite = true) :
      UnpackedFloat.pack Format.binary64 z.toModel.unpack = z.toModel.toBits.toBitVec := by
    refine pack_unpack_bits fun largest => ?_
    unfold Float.Model.unpack UnpackedFloat.unpack at number
    simp only [if_pos largest] at number
    split at number <;> cases number
  have bits := repacked finite
  rw [same, repacked (same ▸ finite)] at bits
  obtain ⟨⟨a, _⟩⟩ := x
  obtain ⟨⟨b, _⟩⟩ := y
  obtain rfl : b = a := UInt64.toBitVec_inj.mp bits
  rfl

theorem canonical_of_unpack {x : Float} {s : Sign} {m : Nat} {e : Int} {positive : 0 < m}
    (unpacked : x.toModel.unpack = .finite s m e positive) : Canonical m e := by
  have finite : x.isFinite = true := by
    change x.toModel.unpack.isFinite = true
    rw [unpacked]
    rfl
  have below := below_of_isFinite finite
  rw [unpacked] at below
  refine ⟨positive, below, ?_⟩
  unfold Float.Model.unpack UnpackedFloat.unpack at unpacked
  simp only at unpacked
  split at unpacked
  · split at unpacked <;> cases unpacked
  · split at unpacked
    · rename_i zero
      split at unpacked
      · cases unpacked
      · cases unpacked
        right
        refine ⟨BitVec.isLt _, ?_⟩
        simp [zero, Format.exponentBias]
    · rename_i nonzero
      cases unpacked
      left
      refine ⟨log2_implicit_append _, ?_⟩
      have field : (@unpackExponent Format.binary64 x.toModel.toBits.toBitVec).toNat ≠ 0 :=
        fun zero => nonzero (BitVec.eq_of_toNat_eq zero)
      simp only [Format.exponentBias]
      omega

theorem unpack_pack {s : Sign} {m : Nat} {e : Int} {positive : 0 < m} (canonical : Canonical m e) :
    (Float.Model.pack (.finite s m e positive)).unpack = .finite s m e positive := by
  rw [unpack_pack_bits, pack_finite, if_neg (Int.not_lt.mpr canonical.most)]
  have most := canonical.most
  unfold maxExponent at most
  rcases canonical.form with ⟨normal, least⟩ | ⟨small, rfl⟩
  · have range := (Nat.log2_eq_iff (Nat.ne_of_gt positive)).mp normal
    have field : (BitVec.ofNat 11 (e + 1075).toNat).toNat = (e + 1075).toNat := by
      rw [BitVec.toNat_ofNat]
      omega
    have inside : BitVec.ofNat 11 (e + 1075).toNat ≠ -1#11 := by
      intro largest
      rw [largest] at field
      change 2047 = _ at field
      omega
    have nonzero : BitVec.ofNat 11 (e + 1075).toNat ≠ 0#11 := by
      intro zero
      rw [zero] at field
      change 0 = _ at field
      omega
    have exponent : ((e + 1075).toNat : Int) - (Format.binary64.exponentBias + (52 : Nat)) = e := by
      simp only [Format.exponentBias]
      omega
    have mantissa : (1#1 ++ BitVec.ofNat 52 m).toNat = m := by
      rw [toNat_implicit_append, BitVec.toNat_ofNat]
      omega
    rw [if_pos normal]
    simp only [UnpackedFloat.unpack, unpackExponent_packComponents, unpackMantissa_packComponents,
      unpackSign_packComponents, ofBitVec_toBitVec, if_neg inside, if_neg nonzero, field, exponent,
      mantissa]
  · have few : m.log2 ≠ 52 := Nat.ne_of_lt ((Nat.log2_lt (Nat.ne_of_gt positive)).mpr small)
    have mantissa : (BitVec.ofNat 52 m).toNat = m := by
      rw [BitVec.toNat_ofNat]
      omega
    have nonzero : BitVec.ofNat 52 m ≠ 0#52 := by
      intro zero
      rw [zero] at mantissa
      change 0 = _ at mantissa
      omega
    rw [if_neg few]
    simp only [UnpackedFloat.unpack, unpackExponent_packComponents, unpackMantissa_packComponents,
      unpackSign_packComponents, ofBitVec_toBitVec, dif_neg nonzero, mantissa]
    rfl

end Linewise.Double
