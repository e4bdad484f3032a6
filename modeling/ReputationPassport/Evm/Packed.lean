import ReputationPassport.Evm.Basic

/-! # Packed encoding

`abi.encodePacked` writes its arguments one after another: a number in big-endian at the width of
its type, a `string` or `bytes` value as its bytes, with no length in front. Two argument lists
can therefore encode to the same bytes, but not arbitrarily so: `frame_inj` says that a prefix and
a suffix of fixed width are determined, and with them the concatenation of all that stands
between. -/

namespace Evm

/-- The lowest `width` bytes of `n`, most significant byte first. -/
def bigEndian : Nat → Nat → Bytes
  | 0, _ => []
  | width + 1, n => bigEndian width (n / 256) ++ [UInt8.ofNat n]

@[simp] theorem length_bigEndian (width n : Nat) : (bigEndian width n).length = width := by
  induction width generalizing n with
  | zero => rfl
  | succ width ih => rw [bigEndian, List.length_append, ih, List.length_singleton]

/-- Numbers below `256 ^ width` are determined by their bytes. -/
theorem bigEndian_inj {width m n : Nat} (hm : m < 256 ^ width) (hn : n < 256 ^ width)
    (h : bigEndian width m = bigEndian width n) : m = n := by
  induction width generalizing m n with
  | zero => omega
  | succ width ih =>
      -- the last byte gives the remainder, the bytes before it the quotient
      obtain ⟨hhigh, hlow⟩ := List.append_inj' h rfl
      have hdiv : m / 256 = n / 256 := by
        rw [Nat.pow_succ] at hm hn
        apply ih _ _ hhigh
        · exact Nat.div_lt_of_lt_mul (by omega)
        · exact Nat.div_lt_of_lt_mul (by omega)
      have hmod : m % 256 = n % 256 := by
        have hbyte := congrArg UInt8.toNat (List.singleton_inj.mp hlow)
        rwa [UInt8.toNat_ofNat', UInt8.toNat_ofNat'] at hbyte
      omega

/-- An argument of `abi.encodePacked`. -/
inductive PackedArg where
  | address (a : Address)
  | uint256 (n : Nat)
  | bytes (data : Bytes)

/-- The bytes an argument contributes. -/
def PackedArg.encode : PackedArg → Bytes
  | .address a => bigEndian 20 a.toNat
  | .uint256 n => bigEndian 32 n
  | .bytes data => data

/-- `abi.encodePacked`. -/
def encodePacked (args : List PackedArg) : Bytes := args.flatMap PackedArg.encode

@[simp] theorem encodePacked_nil : encodePacked [] = [] := rfl

@[simp] theorem encodePacked_cons (a : PackedArg) (args : List PackedArg) :
    encodePacked (a :: args) = a.encode ++ encodePacked args := rfl

theorem address_inj {a b : Address}
    (h : (PackedArg.address a).encode = (PackedArg.address b).encode) : a = b :=
  BitVec.eq_of_toNat_eq (bigEndian_inj a.isLt b.isLt h)

theorem uint256_inj {m n : Nat} (hm : m < wordSize) (hn : n < wordSize)
    (h : (PackedArg.uint256 m).encode = (PackedArg.uint256 n).encode) : m = n :=
  bigEndian_inj hm hn h

/-- **A frame of fixed width cannot be forged**: two packed messages with prefixes of one length
and suffixes of one length are equal only if prefix, body and suffix are. -/
theorem frame_inj {p p' m m' q q' : Bytes} (hp : p.length = p'.length)
    (hq : q.length = q'.length) : p ++ m ++ q = p' ++ m' ++ q' ↔ p = p' ∧ m = m' ∧ q = q' := by
  constructor
  · intro h
    obtain ⟨hfront, hback⟩ := List.append_inj' h hq
    obtain ⟨hhead, hbody⟩ := List.append_inj hfront hp
    exact ⟨hhead, hbody, hback⟩
  · rintro ⟨rfl, rfl, rfl⟩
    rfl

end Evm
