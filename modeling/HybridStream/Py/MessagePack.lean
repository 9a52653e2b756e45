import HybridStream.Py.Value
import Mathlib.Algebra.Group.Int.Defs
import Mathlib.Algebra.Group.Nat.Defs
import Mathlib.Tactic.SplitIfs

/-!
# `Py.MessagePack` — the MessagePack library and a codec that meets its contract

`MessagePack F` is what the snapshot code relies on: a pair of functions, unpacking undoes packing (tuples
read back as lists), and nothing is unpacked from no bytes. The library itself is a third-party package, so
results about snapshots are stated for every such pair.

`codec` is one: the MessagePack wire format, with the eight bytes of a float left to a `FloatCodec`. Its
contract is the round trip `decode_encode`, by recursion over the value; the fuel of the decoder is the
length of the input, which every nested value's encoding undercuts.
-/

namespace HybridStream
namespace Py

open Lib

variable {F : Type} [PyRuntime F]

/-! ## Values MessagePack gives back

Tuples come back as lists, so a value with a tuple for a key does not come back at all; of all other values, nested as
they may be, those come back whose keys are pairwise different. -/

namespace Value

/-- A key MessagePack can give back: a tuple would come back as a list, which is no key. -/
def scalar : Value F → Bool
  | .list _  => false
  | .tuple _ => false
  | .dict _  => false
  | _        => true

/-- No two of the keys are equal. -/
def keysDistinct : List (Value F × Value F) → Bool
  | []        => true
  | e :: rest => rest.all (fun e' => !keyEq e.1 e'.1) && keysDistinct rest

mutual

/-- Every dictionary in the value has pairwise different scalar keys. -/
def packable : Value F → Bool
  | .list xs  => packableList xs
  | .tuple xs => packableList xs
  | .dict kvs => keysDistinct kvs && packablePairs kvs
  | _         => true

def packableList : List (Value F) → Bool
  | []      => true
  | x :: xs => packable x && packableList xs

def packablePairs : List (Value F × Value F) → Bool
  | []            => true
  | (k, v) :: kvs => scalar k && packable v && packablePairs kvs

end

@[simp] theorem packable_none : packable (.none : Value F) = true := by simp [packable]

@[simp] theorem packable_int (i : Int) : packable (.int i : Value F) = true := by simp [packable]

@[simp] theorem packable_str (s : String) : packable (.str s : Value F) = true := by simp [packable]

omit [PyRuntime F] in
/-- Scalars are not changed by a round trip, and are keys. -/
theorem scalar_spec {k : Value F} (h : scalar k = true) : k.untuple = k ∧ k.hashable = true := by
  cases k <;> simp_all [scalar, untuple, hashable]

theorem packable_of_scalar {k : Value F} (h : scalar k = true) : k.packable = true := by
  cases k <;> simp_all [scalar, packable]

theorem distinct_of_keysDistinct {kvs : List (Value F × Value F)} (h : keysDistinct kvs = true) :
    KeysDistinct kvs := by
  induction kvs with
  | nil => exact List.Pairwise.nil
  | cons e kvs ih =>
      rw [keysDistinct, Bool.and_eq_true, List.all_eq_true] at h
      refine List.pairwise_cons.mpr ⟨fun e' he' => ?_, ih h.2⟩
      show keyEq e.1 e'.1 = false
      simpa using h.1 e' he'

end Value

/-! ## What the code relies on

The two library calls as a parameter, with what the snapshots rely on: what was packed is unpacked, and no bytes at all
are no value. The codec below meets both, so results that assume them are about something. -/

/-- `msgpack.packb(_, use_bin_type=True)` and `msgpack.unpackb(_, raw=False, strict_map_key=False)`. -/
structure MessagePack (F : Type) [PyRuntime F] where
  packb         : Value F → Except PyError (List UInt8)
  unpackb       : List UInt8 → Except PyError (Value F)
  unpackb_packb : ∀ {v bytes}, v.packable = true → packb v = .ok bytes → unpackb bytes = .ok v.untuple
  unpackb_nil   : ∀ v, unpackb [] ≠ .ok v

/-! ## The wire format

Numbers in big-endian bytes and pieces cut off a byte string, with the inverse laws that the decoder is verified
by. -/

namespace MessagePack

/-- `n` in `k` bytes, most significant first. -/
def bigEndian : Nat → Nat → List UInt8
  | 0, _     => []
  | k + 1, n => bigEndian k (n / 256) ++ [UInt8.ofNat (n % 256)]

/-- The number a byte string is, most significant byte first. -/
def ofBigEndian (bs : List UInt8) : Nat := bs.foldl (fun n b => n * 256 + b.toNat) 0

theorem length_bigEndian (k n : Nat) : (bigEndian k n).length = k := by
  induction k generalizing n with
  | zero => rfl
  | succ k ih => rw [bigEndian, List.length_append, ih, List.length_singleton]

theorem ofBigEndian_bigEndian {k n : Nat} (h : n < 256 ^ k) : ofBigEndian (bigEndian k n) = n := by
  induction k generalizing n with
  | zero =>
      have : n = 0 := by simpa using h
      subst this
      rfl
  | succ k ih =>
      have hdiv : n / 256 < 256 ^ k := by
        rw [Nat.div_lt_iff_lt_mul (by decide)]
        rwa [Nat.pow_succ] at h
      have hmod : n % 256 < 256 := Nat.mod_lt _ (by decide)
      have hdiv' := ih hdiv
      unfold ofBigEndian at hdiv' ⊢
      rw [bigEndian, List.foldl_append, hdiv', List.foldl_cons, List.foldl_nil,
        UInt8.toNat_ofNat_of_lt' hmod]
      omega

/-- The first `k` bytes and the rest. -/
def splitBytes (k : Nat) (bs : List UInt8) : Option (List UInt8 × List UInt8) :=
  if bs.length < k then none else some (bs.take k, bs.drop k)

theorem splitBytes_append {k : Nat} {bs : List UInt8} (rest : List UInt8) (h : bs.length = k) :
    splitBytes k (bs ++ rest) = some (bs, rest) := by
  unfold splitBytes
  rw [if_neg (by rw [List.length_append]; omega), ← h, List.take_left, List.drop_left]

/-! ### Heads: the first byte and the size or number that goes with it

Every encoding starts with a head: one byte that gives the type and, for most types, a number or a size in the byte
itself or in those behind it. The shortest form is written, and all of them are read. -/

/-- What the first bytes of an encoding announce. -/
inductive Head where
  | nil
  | bool (b : Bool)
  | int (i : Int)
  | float
  | str (size : Nat)
  | bin (size : Nat)
  | arr (size : Nat)
  | map (size : Nat)

/-- A one-byte tag and an unsigned number of `k` bytes. -/
def tagged (tag : UInt8) (k n : Nat) : List UInt8 := tag :: bigEndian k n

/-- The shortest encoding of an integer. -/
def packInt (i : Int) : Option (List UInt8) :=
  if 0 ≤ i then
    let n := i.toNat
    if n < 128 then some [UInt8.ofNat n]
    else if n < 256 ^ 1 then some (tagged 0xcc 1 n)
    else if n < 256 ^ 2 then some (tagged 0xcd 2 n)
    else if n < 256 ^ 4 then some (tagged 0xce 4 n)
    else if n < 256 ^ 8 then some (tagged 0xcf 8 n)
    else none
  else
    -- two's complement in the smallest width that holds the number
    let n := (-i).toNat
    if n ≤ 32 then some [UInt8.ofNat (256 - n)]
    else if n ≤ 256 ^ 1 / 2 then some (tagged 0xd0 1 (256 ^ 1 - n))
    else if n ≤ 256 ^ 2 / 2 then some (tagged 0xd1 2 (256 ^ 2 - n))
    else if n ≤ 256 ^ 4 / 2 then some (tagged 0xd2 4 (256 ^ 4 - n))
    else if n ≤ 256 ^ 8 / 2 then some (tagged 0xd3 8 (256 ^ 8 - n))
    else none

/-- A size below `limit` in the first byte, else after the 16-bit or 32-bit tag. -/
def packSize (base limit : Nat) (tag16 tag32 : UInt8) (n : Nat) : Option (List UInt8) :=
  if n < limit then some [UInt8.ofNat (base + n)]
  else if n < 256 ^ 2 then some (tagged tag16 2 n)
  else if n < 256 ^ 4 then some (tagged tag32 4 n)
  else none

/-- The bytes of a head; `none` where no encoding is wide enough. -/
def packHead : Head → Option (List UInt8)
  | .nil    => some [0xc0]
  | .bool b => some [if b then 0xc3 else 0xc2]
  | .int i  => packInt i
  | .float  => some [0xcb]
  | .str n  => if 32 ≤ n ∧ n < 256 ^ 1 then some (tagged 0xd9 1 n) else packSize 0xa0 32 0xda 0xdb n
  | .bin n  => if n < 256 ^ 1 then some (tagged 0xc4 1 n) else packSize 0 0 0xc5 0xc6 n
  | .arr n  => packSize 0x90 16 0xdc 0xdd n
  | .map n  => packSize 0x80 16 0xde 0xdf n

/-- A number of `k` bytes, and the rest. -/
def readNumber (k : Nat) (f : Nat → Head) (bs : List UInt8) : Option (Head × List UInt8) :=
  (splitBytes k bs).map (fun p => (f (ofBigEndian p.1), p.2))

/-- Two's complement of `k` bytes. -/
def signed (k n : Nat) : Int := if n < 256 ^ k / 2 then n else (n : Int) - (256 ^ k : Nat)

/-- The head after a tag byte. -/
def readTag (tag : UInt8) (bs : List UInt8) : Option (Head × List UInt8) :=
  match tag with
  | 0xc0 => some (.nil, bs)
  | 0xc2 => some (.bool false, bs)
  | 0xc3 => some (.bool true, bs)
  | 0xc4 => readNumber 1 .bin bs
  | 0xc5 => readNumber 2 .bin bs
  | 0xc6 => readNumber 4 .bin bs
  | 0xcb => some (.float, bs)
  | 0xcc => readNumber 1 (fun n => .int n) bs
  | 0xcd => readNumber 2 (fun n => .int n) bs
  | 0xce => readNumber 4 (fun n => .int n) bs
  | 0xcf => readNumber 8 (fun n => .int n) bs
  | 0xd0 => readNumber 1 (fun n => .int (signed 1 n)) bs
  | 0xd1 => readNumber 2 (fun n => .int (signed 2 n)) bs
  | 0xd2 => readNumber 4 (fun n => .int (signed 4 n)) bs
  | 0xd3 => readNumber 8 (fun n => .int (signed 8 n)) bs
  | 0xd9 => readNumber 1 .str bs
  | 0xda => readNumber 2 .str bs
  | 0xdb => readNumber 4 .str bs
  | 0xdc => readNumber 2 .arr bs
  | 0xdd => readNumber 4 .arr bs
  | 0xde => readNumber 2 .map bs
  | 0xdf => readNumber 4 .map bs
  | _    => none

/-- The head of an encoding written by `packHead`. -/
def readHead : List UInt8 → Option (Head × List UInt8)
  | []      => none
  | b :: bs =>
      if b.toNat < 0x80 then some (.int b.toNat, bs)
      else if b.toNat < 0x90 then some (.map (b.toNat - 0x80), bs)
      else if b.toNat < 0xa0 then some (.arr (b.toNat - 0x90), bs)
      else if b.toNat < 0xc0 then some (.str (b.toNat - 0xa0), bs)
      else if 0xe0 ≤ b.toNat then some (.int (b.toNat - 256), bs)
      else readTag b bs

theorem readNumber_bigEndian {k n : Nat} (f : Nat → Head) (rest : List UInt8) (h : n < 256 ^ k) :
    readNumber k f (bigEndian k n ++ rest) = some (f n, rest) := by
  unfold readNumber
  rw [splitBytes_append rest (length_bigEndian k n), Option.map_some, ofBigEndian_bigEndian h]

theorem signed_complement {k n : Nat} (hpos : 0 < n) (h : n ≤ 256 ^ k / 2) :
    256 ^ k - n < 256 ^ k ∧ signed k (256 ^ k - n) = -(n : Int) := by
  have h2 : 2 * (256 ^ k / 2) ≤ 256 ^ k := Nat.mul_div_le _ _
  refine ⟨by omega, ?_⟩
  unfold signed
  rw [if_neg (by omega)]
  omega

theorem toNat_ofNat {n : Nat} (h : n < 256) : (UInt8.ofNat n).toNat = n :=
  UInt8.toNat_ofNat_of_lt' (by show n < 256; exact h)

theorem readHead_small {n : Nat} (rest : List UInt8) (h : n < 128) :
    readHead ([UInt8.ofNat n] ++ rest) = some (.int n, rest) := by
  rw [List.singleton_append, readHead, toNat_ofNat (by omega), if_pos h]

theorem readHead_negative {n : Nat} (rest : List UInt8) (hpos : 0 < n) (h : n ≤ 32) :
    readHead ([UInt8.ofNat (256 - n)] ++ rest) = some (.int (-(n : Int)), rest) := by
  have hint : (((256 - n : Nat) : Int) - 256) = -(n : Int) := by omega
  rw [List.singleton_append, readHead, toNat_ofNat (by omega), if_neg (by omega), if_neg (by omega),
    if_neg (by omega), if_neg (by omega), if_pos (by omega), hint]

theorem readHead_packInt {i : Int} {bs : List UInt8} (rest : List UInt8) (h : packInt i = some bs) :
    readHead (bs ++ rest) = some (.int i, rest) := by
  by_cases hi : 0 ≤ i
  · obtain ⟨n, rfl⟩ := Int.eq_ofNat_of_zero_le hi
    simp only [packInt, Int.natCast_nonneg, if_true, Int.toNat_natCast] at h
    split_ifs at h with h1 h2 h3 h4 h5 <;> cases h
    · exact readHead_small rest h1
    · exact readNumber_bigEndian (fun n => .int n) rest h2
    · exact readNumber_bigEndian (fun n => .int n) rest h3
    · exact readNumber_bigEndian (fun n => .int n) rest h4
    · exact readNumber_bigEndian (fun n => .int n) rest h5
  · obtain ⟨n, hpos, rfl⟩ : ∃ n : Nat, 0 < n ∧ i = -(n : Int) := ⟨(-i).toNat, by omega, by omega⟩
    simp only [packInt, if_neg hi, Int.neg_neg, Int.toNat_natCast] at h
    split_ifs at h with h1 h2 h3 h4 h5 <;> cases h
    · exact readHead_negative rest hpos h1
    · obtain ⟨hlt, hsigned⟩ := signed_complement hpos h2
      rw [← hsigned]
      exact readNumber_bigEndian (fun n => .int (signed 1 n)) rest hlt
    · obtain ⟨hlt, hsigned⟩ := signed_complement hpos h3
      rw [← hsigned]
      exact readNumber_bigEndian (fun n => .int (signed 2 n)) rest hlt
    · obtain ⟨hlt, hsigned⟩ := signed_complement hpos h4
      rw [← hsigned]
      exact readNumber_bigEndian (fun n => .int (signed 4 n)) rest hlt
    · obtain ⟨hlt, hsigned⟩ := signed_complement hpos h5
      rw [← hsigned]
      exact readNumber_bigEndian (fun n => .int (signed 8 n)) rest hlt

/-- **A head reads back.** -/
theorem readHead_packHead {head : Head} {bs : List UInt8} (rest : List UInt8) (h : packHead head = some bs) :
    readHead (bs ++ rest) = some (head, rest) := by
  cases head with
  | nil => cases h; rfl
  | bool b => cases h; cases b <;> rfl
  | int i => exact readHead_packInt rest h
  | float => cases h; rfl
  | str n =>
      -- one form for each range of lengths: in the first byte, or in one, two or four bytes behind it
      simp only [packHead, packSize] at h
      split_ifs at h with h1 h2 h3 h4 <;> cases h
      · exact readNumber_bigEndian .str rest h1.2
      · rw [List.singleton_append, readHead, toNat_ofNat (by omega), if_neg (by omega), if_neg (by omega),
          if_neg (by omega), if_pos (by omega), Nat.add_sub_cancel_left]
      · exact readNumber_bigEndian .str rest h3
      · exact readNumber_bigEndian .str rest h4
  | bin n =>
      simp only [packHead, packSize] at h
      split_ifs at h with h1 h2 h3 h4 <;> cases h
      · exact readNumber_bigEndian .bin rest h1
      · exact absurd h2 (Nat.not_lt_zero n)
      · exact readNumber_bigEndian .bin rest h3
      · exact readNumber_bigEndian .bin rest h4
  -- arrays and maps have no form with one byte
  | arr n =>
      simp only [packHead, packSize] at h
      split_ifs at h with h1 h2 h3 <;> cases h
      · rw [List.singleton_append, readHead, toNat_ofNat (by omega), if_neg (by omega), if_neg (by omega),
          if_pos (by omega), Nat.add_sub_cancel_left]
      · exact readNumber_bigEndian .arr rest h2
      · exact readNumber_bigEndian .arr rest h3
  | map n =>
      simp only [packHead, packSize] at h
      split_ifs at h with h1 h2 h3 <;> cases h
      · rw [List.singleton_append, readHead, toNat_ofNat (by omega), if_neg (by omega), if_pos (by omega),
          Nat.add_sub_cancel_left]
      · exact readNumber_bigEndian .map rest h2
      · exact readNumber_bigEndian .map rest h3

theorem packHead_pos {head : Head} {bs : List UInt8} (h : packHead head = some bs) : 0 < bs.length := by
  cases bs with
  | nil =>
      have hread := readHead_packHead [] h
      cases hread
  | cons b bs => exact Nat.zero_lt_succ _

/-! ### Values

A value is its head, its scalar bytes and the encodings of its parts; the decoder is recursive in a number of parts
that the head announces, and takes fuel for the depth. -/

/-- The eight bytes of a float. -/
structure FloatCodec (F : Type) where
  encode : F → Option (List UInt8)
  decode : List UInt8 → Option F
  spec   : ∀ {x bs}, encode x = some bs → bs.length = 8 ∧ decode bs = some x

/-- The UTF-8 bytes of a string. -/
def utf8 (s : String) : List UInt8 := s.toByteArray.data.toList

/-- The string of UTF-8 bytes. -/
def ofUtf8 (bs : List UInt8) : Option String := String.fromUTF8? ⟨bs.toArray⟩

theorem ofUtf8_utf8 (s : String) : ofUtf8 (utf8 s) = some s := by
  unfold ofUtf8 utf8 String.fromUTF8?
  have hbytes : (⟨s.toByteArray.data.toList.toArray⟩ : ByteArray) = s.toByteArray := rfl
  rw [hbytes, dif_pos s.isValidUTF8]
  rfl

theorem utf8_injective : Function.Injective utf8 := by
  intro s t h
  have hs := ofUtf8_utf8 s
  rw [h, ofUtf8_utf8 t] at hs
  exact (Option.some.inj hs).symm

/-- The bytes a string was read from are its own. -/
theorem utf8_of_ofUtf8 {bs : List UInt8} {s : String} (h : ofUtf8 bs = some s) : utf8 s = bs := by
  unfold ofUtf8 String.fromUTF8? at h
  split at h
  · cases h
    rfl
  · cases h

variable (fc : FloatCodec F)

mutual

/-- The bytes of a value. -/
def encode : Value F → Option (List UInt8)
  | .none     => packHead .nil
  | .bool b   => packHead (.bool b)
  | .int i    => packHead (.int i)
  | .float x  => do some ((← packHead .float) ++ (← fc.encode x))
  | .str s    => do some ((← packHead (.str (utf8 s).length)) ++ utf8 s)
  | .bytes bs => do some ((← packHead (.bin bs.length)) ++ bs)
  | .list xs  => do some ((← packHead (.arr xs.length)) ++ (← encodeList xs))
  | .tuple xs => do some ((← packHead (.arr xs.length)) ++ (← encodeList xs))
  | .dict kvs => do some ((← packHead (.map kvs.length)) ++ (← encodePairs kvs))

def encodeList : List (Value F) → Option (List UInt8)
  | []      => some []
  | x :: xs => do some ((← encode x) ++ (← encodeList xs))

def encodePairs : List (Value F × Value F) → Option (List UInt8)
  | []            => some []
  | (k, v) :: kvs => do some ((← encode k) ++ (← encode v) ++ (← encodePairs kvs))

end

/-- `n` items, one after another. -/
def readMany {α : Type} (read : List UInt8 → Option (α × List UInt8)) :
    Nat → List UInt8 → Option (List α × List UInt8)
  | 0, bs     => some ([], bs)
  | n + 1, bs => do
      let (x, bs) ← read bs
      let (xs, bs) ← readMany read n bs
      some (x :: xs, bs)

/-- A key and a value. -/
def readPair (read : List UInt8 → Option (Value F × List UInt8)) (bs : List UInt8) :
    Option ((Value F × Value F) × List UInt8) := do
  let (k, bs) ← read bs
  let (v, bs) ← read bs
  some ((k, v), bs)

/-- A value and the bytes behind it. -/
def decode : Nat → List UInt8 → Option (Value F × List UInt8)
  | 0, _         => none
  | fuel + 1, bs => do
      let (head, bs) ← readHead bs
      match head with
      | .nil    => some (.none, bs)
      | .bool b => some (.bool b, bs)
      | .int i  => some (.int i, bs)
      | .float  => do
          let (x, bs) ← splitBytes 8 bs
          some (.float (← fc.decode x), bs)
      | .str n  => do
          let (s, bs) ← splitBytes n bs
          some (.str (← ofUtf8 s), bs)
      | .bin n  => do
          let (b, bs) ← splitBytes n bs
          some (.bytes b, bs)
      | .arr n  => do
          let (xs, bs) ← readMany (decode fuel) n bs
          some (.list xs, bs)
      | .map n  => do
          let (kvs, bs) ← readMany (readPair (decode fuel)) n bs
          if kvs.all (fun e => e.1.hashable) then
            some (.dict (kvs.foldl (fun acc e => setEntry e.1 e.2 acc) []), bs)
          else none

/-! ### The round trip

Decoding what was encoded, with anything behind it, gives back the value and what was behind it. The induction is over
the value; lists and dictionaries have the same statement for their items. -/

variable {fc}

/-- A decoder that has read a head goes on with the body. -/
theorem decode_head {fuel : Nat} {head : Head} {hbytes body : List UInt8} (h : packHead head = some hbytes)
    (hfuel : (hbytes ++ body).length ≤ fuel) (rest : List UInt8) :
    ∃ fuel', fuel = fuel' + 1 ∧ body.length ≤ fuel' ∧
      readHead (hbytes ++ body ++ rest) = some (head, body ++ rest) := by
  have hpos := packHead_pos h
  rw [List.length_append] at hfuel
  refine ⟨fuel - 1, by omega, by omega, ?_⟩
  rw [List.append_assoc]
  exact readHead_packHead (body ++ rest) h

omit [PyRuntime F] in
theorem hashable_untuplePairs (kvs : List (Value F × Value F)) (h : ∀ e ∈ kvs, e.1.scalar = true) :
    (Value.untuplePairs kvs).all (fun e => e.1.hashable) = true := by
  rw [Value.untuplePairs_eq_map, List.all_map, List.all_eq_true]
  intro e he
  obtain ⟨hsame, hkey⟩ := Value.scalar_spec (h e he)
  show e.1.untuple.hashable = true
  rw [hsame, hkey]

theorem scalar_of_packablePairs {kvs : List (Value F × Value F)} (h : Value.packablePairs kvs = true) :
    ∀ e ∈ kvs, e.1.scalar = true := by
  induction kvs with
  | nil => exact fun e he => absurd he List.not_mem_nil
  | cons e kvs ih =>
      obtain ⟨k, v⟩ := e
      rw [Value.packablePairs, Bool.and_eq_true, Bool.and_eq_true] at h
      intro e' he'
      rcases List.mem_cons.mp he' with rfl | he'
      · exact h.1.1
      · exact ih h.2 e' he'

/-- A round trip leaves scalar keys as they are, hence different keys different. -/
theorem keysDistinct_untuplePairs {kvs : List (Value F × Value F)} (hscalar : ∀ e ∈ kvs, e.1.scalar = true)
    (h : Value.keysDistinct kvs = true) : Value.keysDistinct (Value.untuplePairs kvs) = true := by
  induction kvs with
  | nil => exact h
  | cons e kvs ih =>
      obtain ⟨k, v⟩ := e
      rw [Value.keysDistinct, Bool.and_eq_true, List.all_eq_true] at h
      rw [Value.untuplePairs, Value.keysDistinct, Bool.and_eq_true, List.all_eq_true]
      refine ⟨?_, ih (fun e he => hscalar e (List.mem_cons_of_mem _ he)) h.2⟩
      intro e' he'
      rw [Value.untuplePairs_eq_map] at he'
      obtain ⟨e₀, he₀, rfl⟩ := List.mem_map.mp he'
      show (!Value.keyEq k.untuple e₀.1.untuple) = true
      rw [(Value.scalar_spec (hscalar _ List.mem_cons_self)).1,
        (Value.scalar_spec (hscalar e₀ (List.mem_cons_of_mem _ he₀))).1]
      exact h.1 e₀ he₀

/-- A value that is its head alone. -/
theorem decode_atom {head : Head} {bs : List UInt8} {fuel : Nat} (rest : List UInt8)
    (h : packHead head = some bs) (hfuel : bs.length ≤ fuel) :
    ∃ fuel', fuel = fuel' + 1 ∧ readHead (bs ++ rest) = some (head, rest) := by
  have hlength : (bs ++ []).length ≤ fuel := by simpa using hfuel
  obtain ⟨fuel', hsucc, -, hread⟩ := decode_head h hlength rest
  exact ⟨fuel', hsucc, by simpa using hread⟩

mutual

/-- **What was packed is unpacked**, tuples read back as lists. -/
theorem decode_encode : ∀ (v : Value F) {bs : List UInt8} {fuel : Nat} (rest : List UInt8),
    v.packable = true → encode fc v = some bs → bs.length ≤ fuel →
    decode fc fuel (bs ++ rest) = some (v.untuple, rest)
  -- the atoms are read back by their first byte alone
  | .none, bs, fuel, rest, _, h, hfuel => by
      rw [encode] at h
      obtain ⟨fuel, rfl, hread⟩ := decode_atom rest h hfuel
      simp only [decode, hread, bind, Option.bind, Value.untuple]
  | .bool b, bs, fuel, rest, _, h, hfuel => by
      rw [encode] at h
      obtain ⟨fuel, rfl, hread⟩ := decode_atom rest h hfuel
      simp only [decode, hread, bind, Option.bind, Value.untuple]
  | .int i, bs, fuel, rest, _, h, hfuel => by
      rw [encode] at h
      obtain ⟨fuel, rfl, hread⟩ := decode_atom rest h hfuel
      simp only [decode, hread, bind, Option.bind, Value.untuple]
  -- the ones with a body: a head with the length, and then as many bytes
  | .float x, bs, fuel, rest, _, h, hfuel => by
      rw [encode] at h
      simp only [Option.bind_eq_bind, Option.bind_eq_some_iff, Option.some.injEq] at h
      obtain ⟨hbytes, hhead, body, hbody, rfl⟩ := h
      obtain ⟨fuel, rfl, -, hread⟩ := decode_head hhead hfuel rest
      obtain ⟨hlength, hdecode⟩ := fc.spec hbody
      simp only [decode, hread, bind, Option.bind, splitBytes_append rest hlength, hdecode, Value.untuple]
  | .str s, bs, fuel, rest, _, h, hfuel => by
      rw [encode] at h
      simp only [Option.bind_eq_bind, Option.bind_eq_some_iff, Option.some.injEq] at h
      obtain ⟨hbytes, hhead, rfl⟩ := h
      obtain ⟨fuel, rfl, -, hread⟩ := decode_head hhead hfuel rest
      simp only [decode, hread, bind, Option.bind, splitBytes_append rest rfl, ofUtf8_utf8, Value.untuple]
  | .bytes b, bs, fuel, rest, _, h, hfuel => by
      rw [encode] at h
      simp only [Option.bind_eq_bind, Option.bind_eq_some_iff, Option.some.injEq] at h
      obtain ⟨hbytes, hhead, rfl⟩ := h
      obtain ⟨fuel, rfl, -, hread⟩ := decode_head hhead hfuel rest
      simp only [decode, hread, bind, Option.bind, splitBytes_append rest rfl, Value.untuple]
  -- lists and tuples are packed alike, so what is read back is a list
  | .list xs, bs, fuel, rest, hp, h, hfuel => by
      rw [encode] at h
      rw [Value.packable] at hp
      simp only [Option.bind_eq_bind, Option.bind_eq_some_iff, Option.some.injEq] at h
      obtain ⟨hbytes, hhead, body, hbody, rfl⟩ := h
      obtain ⟨fuel, rfl, hfuel, hread⟩ := decode_head hhead hfuel rest
      simp only [decode, hread, bind, Option.bind, decode_encodeList xs rest hp hbody hfuel, Value.untuple]
  | .tuple xs, bs, fuel, rest, hp, h, hfuel => by
      rw [encode] at h
      rw [Value.packable] at hp
      simp only [Option.bind_eq_bind, Option.bind_eq_some_iff, Option.some.injEq] at h
      obtain ⟨hbytes, hhead, body, hbody, rfl⟩ := h
      obtain ⟨fuel, rfl, hfuel, hread⟩ := decode_head hhead hfuel rest
      simp only [decode, hread, bind, Option.bind, decode_encodeList xs rest hp hbody hfuel, Value.untuple]
  | .dict kvs, bs, fuel, rest, hp, h, hfuel => by
      rw [encode] at h
      rw [Value.packable, Bool.and_eq_true] at hp
      simp only [Option.bind_eq_bind, Option.bind_eq_some_iff, Option.some.injEq] at h
      obtain ⟨hbytes, hhead, body, hbody, rfl⟩ := h
      obtain ⟨fuel, rfl, hfuel, hread⟩ := decode_head hhead hfuel rest
      -- the keys are texts, numbers or `None`, so they can be hashed and are pairwise different
      have hscalar := scalar_of_packablePairs hp.2
      simp only [decode, hread, bind, Option.bind, decode_encodePairs kvs rest hp.2 hbody hfuel,
        hashable_untuplePairs kvs hscalar, if_true, Value.untuple,
        foldl_setEntry (Value.distinct_of_keysDistinct (keysDistinct_untuplePairs hscalar hp.1))]

theorem decode_encodeList : ∀ (xs : List (Value F)) {bs : List UInt8} {fuel : Nat} (rest : List UInt8),
    Value.packableList xs = true → encodeList fc xs = some bs → bs.length ≤ fuel →
    readMany (decode fc fuel) xs.length (bs ++ rest) = some (Value.untupleList xs, rest)
  | [], bs, fuel, rest, _, h, _ => by
      rw [encodeList] at h
      cases h
      rw [Value.untupleList]
      rfl
  | x :: xs, bs, fuel, rest, hp, h, hfuel => by
      rw [encodeList] at h
      rw [Value.packableList, Bool.and_eq_true] at hp
      simp only [Option.bind_eq_bind, Option.bind_eq_some_iff, Option.some.injEq] at h
      obtain ⟨head, hhead, body, hbody, rfl⟩ := h
      rw [List.length_append] at hfuel
      rw [List.length_cons, readMany, List.append_assoc]
      have hx := decode_encode x (body ++ rest) hp.1 hhead (show head.length ≤ fuel by omega)
      have hxs := decode_encodeList xs rest hp.2 hbody (show body.length ≤ fuel by omega)
      simp only [hx, hxs, bind, Option.bind, Value.untupleList]

theorem decode_encodePairs : ∀ (kvs : List (Value F × Value F)) {bs : List UInt8} {fuel : Nat}
    (rest : List UInt8), Value.packablePairs kvs = true → encodePairs fc kvs = some bs → bs.length ≤ fuel →
    readMany (readPair (decode fc fuel)) kvs.length (bs ++ rest) = some (Value.untuplePairs kvs, rest)
  | [], bs, fuel, rest, _, h, _ => by
      rw [encodePairs] at h
      cases h
      rw [Value.untuplePairs]
      rfl
  | (k, v) :: kvs, bs, fuel, rest, hp, h, hfuel => by
      rw [encodePairs] at h
      rw [Value.packablePairs, Bool.and_eq_true, Bool.and_eq_true] at hp
      simp only [Option.bind_eq_bind, Option.bind_eq_some_iff, Option.some.injEq] at h
      obtain ⟨kbytes, hk, vbytes, hv, body, hbody, rfl⟩ := h
      rw [List.length_append, List.length_append] at hfuel
      rw [List.length_cons, readMany, List.append_assoc, List.append_assoc, readPair]
      have hkey := decode_encode k (vbytes ++ (body ++ rest)) (Value.packable_of_scalar hp.1.1) hk
        (show kbytes.length ≤ fuel by omega)
      have hvalue := decode_encode v (body ++ rest) hp.1.2 hv (show vbytes.length ≤ fuel by omega)
      have hkvs := decode_encodePairs kvs rest hp.2 hbody (show body.length ≤ fuel by omega)
      simp only [hkey, hvalue, hkvs, bind, Option.bind, Value.untuplePairs]

end

/-- The MessagePack codec over a codec for floats. -/
def codec (fc : FloatCodec F) : MessagePack F where
  packb v := match encode fc v with
    | some bytes => .ok bytes
    | none       => .error ⟨.overflowError, "Integer value out of range"⟩
  unpackb bytes := match decode fc bytes.length bytes with
    | some (v, [])     => .ok v
    | some (_, _ :: _) => .error ⟨.valueError, "unpack(b) received extra data."⟩
    | none             => .error ⟨.valueError, "Unpack failed: incomplete input"⟩
  unpackb_packb := by
    intro v bytes hp h
    cases hencode : encode fc v with
    | none => rw [hencode] at h; cases h
    | some bs =>
        rw [hencode] at h
        cases h
        have hdecode := decode_encode v [] hp hencode (Nat.le_refl _)
        rw [List.append_nil] at hdecode
        rw [hdecode]
  unpackb_nil := by
    intro v h
    cases h

end MessagePack

end Py
end HybridStream
