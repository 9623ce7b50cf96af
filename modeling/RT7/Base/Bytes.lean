import RT7.Base.Python
import Mathlib.Tactic.Ring
import Mathlib.Tactic.NormNum

/-!
# Byte strings: slices, little-endian integers, `struct`

* `window xs o n`   the `n` elements of `xs` from offset `o` on (fewer when `xs` ends before);
* `slice xs i j`    the slice `xs[i:j]`, with its clamping and its negative indices;
* `leNat`, `leBytes`   little-endian integers, `leNat_leBytes` and `leBytes_leNat`;
* `Code`, `unpack`, `pack`, `unpackFrom`   the little-endian `struct` formats, with the round
  trip `unpack_pack`;
* `hex`, `hex08`    the texts `b.hex()` and `f"{n:08x}"`.
-/

namespace RT7

abbrev Bytes := List UInt8

/-! ## windows and slices -/

section
variable {α : Type}

def window (xs : List α) (o n : Nat) : List α := (xs.drop o).take n

theorem length_window (xs : List α) (o n : Nat) :
    (window xs o n).length = min n (xs.length - o) := by
  rw [window, List.length_take, List.length_drop]

theorem length_window_of_le {xs : List α} {o n : Nat} (h : o + n ≤ xs.length) :
    (window xs o n).length = n := by
  rw [length_window]
  omega

theorem window_zero (xs : List α) (n : Nat) : window xs 0 n = xs.take n := rfl

theorem window_self (xs : List α) : window xs 0 xs.length = xs := by
  rw [window_zero, List.take_length]

/-- a window of a window -/
theorem window_window {xs : List α} {o n o' n' : Nat} (h : o' + n' ≤ n) :
    window (window xs o n) o' n' = window xs (o + o') n' := by
  unfold window
  rw [List.drop_take, List.drop_drop, List.take_take, Nat.min_eq_left (by omega)]

theorem window_append_left {xs ys : List α} {o n : Nat} (h : o + n ≤ xs.length) :
    window (xs ++ ys) o n = window xs o n := by
  unfold window
  rw [List.drop_append_of_le_length (by omega),
    List.take_append_of_le_length (by rw [List.length_drop]; omega)]

theorem window_append_right {xs ys : List α} {o n : Nat} (h : xs.length ≤ o) :
    window (xs ++ ys) o n = window ys (o - xs.length) n := by
  unfold window
  rw [List.drop_append, List.drop_eq_nil_of_le h, List.nil_append]

/-- the window that is exactly the middle one of three pieces -/
theorem window_middle {xs ys zs : List α} {o n : Nat} (ho : xs.length = o) (hn : ys.length = n) :
    window (xs ++ (ys ++ zs)) o n = ys := by
  subst ho; subst hn
  rw [window_append_right (Nat.le_refl _), Nat.sub_self, window_append_left (by omega),
    window_self]

/-- records of one width, put end to end, are read back one by one -/
theorem windows_flatten {n : Nat} {l : List (List α)} (h : ∀ r ∈ l, r.length = n) :
    (List.range l.length).map (fun i => window l.flatten (i * n) n) = l := by
  induction l with
  | nil => rfl
  | cons r l ih =>
    have hr := h r List.mem_cons_self
    have ih' := ih fun r' h' => h r' (List.mem_cons_of_mem r h')
    rw [List.length_cons, List.range_succ_eq_map, List.map_cons, List.map_map, List.flatten_cons]
    congr 1
    · rw [Nat.zero_mul, window_append_left (by omega), ← hr, window_self]
    · refine Eq.trans (List.map_congr_left fun i _ => ?_) ih'
      show window (r ++ l.flatten) ((i + 1) * n) n = _
      rw [Nat.succ_mul, window_append_right (by omega), hr, Nat.add_sub_cancel]

theorem length_flatten_of_length {n : Nat} {l : List (List α)} (h : ∀ r ∈ l, r.length = n) :
    l.flatten.length = l.length * n := by
  induction l with
  | nil => simp
  | cons r l ih =>
    rw [List.flatten_cons, List.length_append, h r List.mem_cons_self,
      ih fun r' h' => h r' (List.mem_cons_of_mem r h'), List.length_cons, Nat.succ_mul, Nat.add_comm]

/-- An index of a slice, made absolute and clamped to the sequence. -/
def clampIndex (n : Nat) (i : Int) : Nat := if i < 0 then (i + n).toNat else min i.toNat n

/-- `xs[i:j]` -/
def slice (xs : List α) (i j : Int) : List α :=
  (xs.take (clampIndex xs.length j)).drop (clampIndex xs.length i)

theorem slice_eq_window (xs : List α) (o n : Nat) : slice xs o (o + n) = window xs o n := by
  have h1 : clampIndex xs.length (o : Int) = min o xs.length := by
    simp [clampIndex]
  have h2 : clampIndex xs.length ((o : Int) + n) = min (o + n) xs.length := by
    have : ¬ ((o : Int) + n < 0) := by omega
    simp only [clampIndex, this, if_false]
    omega
  unfold slice
  rw [h1, h2]
  rcases Nat.le_total o xs.length with h | h
  · rw [Nat.min_eq_left h, List.drop_take, window]
    rcases Nat.le_total (o + n) xs.length with h' | h'
    · rw [Nat.min_eq_left h', Nat.add_sub_cancel_left]
    · rw [Nat.min_eq_right h', ← List.length_drop, List.take_length,
        List.take_of_length_le (by rw [List.length_drop]; omega)]
  · rw [Nat.min_eq_right h, Nat.min_eq_right (by omega), List.take_length,
      List.drop_length, window, List.drop_eq_nil_of_le h, List.take_nil]

/-- the slice at a signed offset that a guard has shown to be non-negative -/
theorem slice_toNat {xs : List α} {i : Int} (h : 0 ≤ i) (n : Nat) :
    slice xs i (i + n) = window xs i.toNat n := by
  have e : i = (i.toNat : Int) := by omega
  rw [e, slice_eq_window]
  rfl

end

/-! ## little-endian integers -/

/-- The integer whose little-endian bytes are given. -/
def leNat : Bytes → Nat
  | [] => 0
  | b :: bs => b.toNat + 256 * leNat bs

/-- The `w` little-endian bytes of `n`; bits past the `8 * w`-th are dropped. -/
def leBytes : Nat → Nat → Bytes
  | 0, _ => []
  | w + 1, n => UInt8.ofNat (n % 256) :: leBytes w (n / 256)

theorem length_leBytes (w n : Nat) : (leBytes w n).length = w := by
  induction w generalizing n with
  | zero => rfl
  | succ w ih => rw [leBytes, List.length_cons, ih]

theorem leNat_leBytes {w n : Nat} (h : n < 256 ^ w) : leNat (leBytes w n) = n := by
  induction w generalizing n with
  | zero =>
    have : n = 0 := by simpa using h
    subst this
    rfl
  | succ w ih =>
    have h1 : n / 256 < 256 ^ w := by
      rw [Nat.div_lt_iff_lt_mul (by norm_num), ← pow_succ]
      exact h
    have h2 : (UInt8.ofNat (n % 256)).toNat = n % 256 := by
      rw [UInt8.toNat_ofNat']
      omega
    rw [leBytes, leNat, ih h1, h2]
    omega

/-! ## `struct` -/

namespace Struct

/-- The format codes of the two little-endian formats in use. -/
inductive Code where
  | s (n : Nat)
  | I
  | Q
  deriving DecidableEq, Repr

def Code.size : Code → Nat
  | .s n => n
  | .I => 4
  | .Q => 8

inductive Value where
  | bytes (b : Bytes)
  | int (n : Nat)
  deriving DecidableEq, Repr

/-- `struct.calcsize` -/
def calcsize (fmt : List Code) : Nat := (fmt.map Code.size).sum

def Code.read : Code → Bytes → Value
  | .s _, b => .bytes b
  | .I, b => .int (leNat b)
  | .Q, b => .int (leNat b)

/-- `struct.unpack` on a buffer of the right length -/
def unpack : List Code → Bytes → List Value
  | [], _ => []
  | c :: cs, b => c.read (b.take c.size) :: unpack cs (b.drop c.size)

/-- The value fits the field of a code. -/
def Code.Fits : Code → Value → Prop
  | .s n, .bytes b => b.length = n
  | .I, .int n => n < 2 ^ 32
  | .Q, .int n => n < 2 ^ 64
  | _, _ => False

def Code.write : Code → Value → Bytes
  | .I, .int n => leBytes 4 n
  | .Q, .int n => leBytes 8 n
  | _, .bytes b => b
  | _, _ => []

/-- `struct.pack` -/
def pack : List Code → List Value → Bytes
  | c :: cs, v :: vs => c.write v ++ pack cs vs
  | _, _ => []

theorem calcsize_cons (c : Code) (cs : List Code) : calcsize (c :: cs) = c.size + calcsize cs := by
  rw [calcsize, List.map_cons, List.sum_cons, calcsize]

theorem Code.length_write {c : Code} {v : Value} (h : c.Fits v) : (c.write v).length = c.size := by
  cases c with
  | s n => cases v with
    | bytes b => exact h
    | int n => exact False.elim h
  | I => cases v with
    | bytes b => exact False.elim h
    | int n => exact length_leBytes 4 n
  | Q => cases v with
    | bytes b => exact False.elim h
    | int n => exact length_leBytes 8 n

theorem Code.read_write {c : Code} {v : Value} (h : c.Fits v) : c.read (c.write v) = v := by
  cases c with
  | s n => cases v with
    | bytes b => rfl
    | int n => exact False.elim h
  | I => cases v with
    | bytes b => exact False.elim h
    | int n => exact congrArg Value.int (leNat_leBytes (w := 4) h)
  | Q => cases v with
    | bytes b => exact False.elim h
    | int n => exact congrArg Value.int (leNat_leBytes (w := 8) h)

theorem length_pack {fmt : List Code} {vs : List Value} (h : List.Forall₂ Code.Fits fmt vs) :
    (pack fmt vs).length = calcsize fmt := by
  induction h with
  | nil => rfl
  | cons hc _ ih => rw [pack, List.length_append, Code.length_write hc, ih, calcsize_cons]

/-- **Unpacking undoes packing**, whatever follows the packed record. -/
theorem unpack_pack {fmt : List Code} {vs : List Value} (h : List.Forall₂ Code.Fits fmt vs)
    (rest : Bytes) : unpack fmt (pack fmt vs ++ rest) = vs := by
  induction h with
  | nil => rfl
  | @cons c v cs vs hc _ ih =>
    have hl := Code.length_write hc
    rw [unpack, pack, List.append_assoc, List.take_left' hl, List.drop_left' hl, ih,
      Code.read_write hc]

/-- `Struct.unpack_from(data, offset)`: a negative offset counts from the end of the buffer, and
a record that is not inside the buffer raises `struct.error`. -/
def unpackFrom (fmt : List Code) (data : Bytes) (offset : Int) : Except Py.Exn (List Value) := do
  let size := calcsize fmt
  Py.raiseIf (offset < 0 ∧ offset + size > 0)
    (.structError s!"not enough data to unpack {size} bytes at offset {offset}")
  Py.raiseIf (offset < 0 ∧ offset + data.length < 0)
    (.structError s!"offset {offset} out of range for {data.length}-byte buffer")
  let start := if offset < 0 then offset + data.length else offset
  Py.raiseIf (data.length - start < size)
    (.structError s!"unpack_from requires a buffer of at least {start + size} bytes")
  return unpack fmt (window data start.toNat size)

theorem unpackFrom_of_le {fmt : List Code} {data : Bytes} {offset : Int} (h0 : 0 ≤ offset)
    (h : offset + calcsize fmt ≤ data.length) :
    unpackFrom fmt data offset = .ok (unpack fmt (window data offset.toNat (calcsize fmt))) := by
  have hneg : ¬ offset < 0 := by omega
  have hlen : ¬ ((data.length : Int) - offset < calcsize fmt) := by omega
  simp only [unpackFrom, hneg, false_and, if_false, hlen, Py.raiseIf_neg, not_false_eq_true, bind,
    Except.bind, pure, Except.pure]

end Struct

/-! ## texts -/

def hexDigit (n : Nat) : Char := "0123456789abcdef".toList.getD n '?'

/-- `b.hex()` -/
def hex (b : Bytes) : String :=
  String.ofList (b.flatMap fun x => [hexDigit (x.toNat / 16), hexDigit (x.toNat % 16)])

/-- `f"{n:08x}"` of a 32-bit integer -/
def hex08 (n : Nat) : String := hex (leBytes 4 n).reverse

end RT7
