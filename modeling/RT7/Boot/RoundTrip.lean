import RT7.Base.Loop
import RT7.Boot.Build

/-!
# The stock round trip

* `Stream`          a file that is read from its start;
* `Comparison`, `turn`   the loop of `files_equal`, with any size of chunk;
* `comparison_returns`   the loop ends, for every positive size of chunk;
* `SamePrefix`     what it decides: the contents, or their prefixes up to the limit;
* `filesEqual_returns`   with the size of the script it gives the value of `filesEqual`;
* `stockGate_exact`      the two checks of `main` on the rebuilt stock payload.
-/

namespace RT7.Boot

open Py

/-- An open file; the position is where the next read begins. -/
structure Stream where
  content : Bytes
  position : Nat

namespace Stream

/-- `path.open("rb")` -/
def ofFile (content : Bytes) : Stream := ⟨content, 0⟩

def rest (s : Stream) : Bytes := s.content.drop s.position

/-- `stream.read(size)`; a negative size reads everything. -/
def read (s : Stream) (size : Int) : Bytes × Stream :=
  let chunk := if size < 0 then s.rest else s.rest.take size.toNat
  (chunk, { s with position := s.position + chunk.length })

variable {s : Stream} {size : Int}

theorem rest_ofFile (content : Bytes) : (ofFile content).rest = content := List.drop_zero

theorem read_fst (h : 0 ≤ size) : (s.read size).1 = s.rest.take size.toNat := by
  have hneg : ¬ size < 0 := by omega
  show (if size < 0 then s.rest else s.rest.take size.toNat) = _
  rw [if_neg hneg]

/-- a read takes its chunk from the front -/
theorem rest_read (s : Stream) (size : Int) :
    (s.read size).2.rest = s.rest.drop (s.read size).1.length := by
  show s.content.drop (s.position + (s.read size).1.length) = _
  rw [← List.drop_drop]
  rfl

end Stream

/-! ## the loop of files_equal -/

/-- The variables of the loop. -/
structure Comparison where
  left : Stream
  right : Stream
  remaining : Option Int

namespace Comparison

def start (left right : Bytes) (limit : Option Nat) : Comparison :=
  ⟨.ofFile left, .ofFile right, limit.map Int.ofNat⟩

/-- `remaining is None or remaining > 0` -/
def goesOn : Option Int → Bool
  | none => true
  | some remaining => remaining > 0

/-- `CHUNK_SIZE if remaining is None else min(CHUNK_SIZE, remaining)` -/
def nextSize (chunkSize : Nat) : Option Int → Int
  | none => chunkSize
  | some remaining => min (chunkSize : Int) remaining

def turn (chunkSize : Nat) (c : Comparison) : Turn Comparison Bool :=
  if goesOn c.remaining then
    let left := c.left.read (nextSize chunkSize c.remaining)
    let right := c.right.read (nextSize chunkSize c.remaining)
    if left.1 ≠ right.1 then .returned false
    else if left.1 = [] then .returned true
    else .again ⟨left.2, right.2, c.remaining.map fun remaining => remaining - left.1.length⟩
  else .returned true

/-- what is still to be compared of a file -/
def part (content : Bytes) : Option Int → Bytes
  | none => content
  | some remaining => content.take remaining.toNat

def Same (c : Comparison) : Prop := part c.left.rest c.remaining = part c.right.rest c.remaining

instance (c : Comparison) : Decidable c.Same := inferInstanceAs (Decidable (_ = _))

section
variable {chunkSize : Nat} {remaining : Option Int} {c d : Comparison} {content : Bytes}

theorem nextSize_pos (hchunk : 0 < chunkSize) (h : goesOn remaining = true) :
    0 < nextSize chunkSize remaining := by
  cases remaining with
  | none =>
    show (0 : Int) < chunkSize
    omega
  | some n =>
    have hn : 0 < n := of_decide_eq_true h
    show 0 < min (chunkSize : Int) n
    omega

/-- the first chunk, and what is left to compare behind it -/
theorem part_eq_append (content : Bytes) (h : 0 ≤ nextSize chunkSize remaining) :
    part content remaining = content.take (nextSize chunkSize remaining).toNat ++
      part (content.drop (content.take (nextSize chunkSize remaining).toNat).length)
        (remaining.map fun n => n - (content.take (nextSize chunkSize remaining).toNat).length) := by
  generalize hsize : (nextSize chunkSize remaining).toNat = size
  have hdrop : content.drop (content.take size).length = content.drop size := by
    rw [List.length_take]
    by_cases hle : size ≤ content.length
    · rw [Nat.min_eq_left hle]
    · rw [Nat.min_eq_right (by omega), List.drop_length, List.drop_of_length_le (by omega)]
  rw [hdrop]
  cases remaining with
  | none => exact (List.take_append_drop size content).symm
  | some n =>
    have hle : size ≤ n.toNat := by
      have hmin : (nextSize chunkSize (some n)) = min (chunkSize : Int) n := rfl
      omega
    show content.take n.toNat = content.take size ++
      (content.drop size).take (n - (content.take size).length).toNat
    by_cases hlong : size ≤ content.length
    · have hsub : (n - ((content.take size).length : Int)).toNat = n.toNat - size := by
        rw [List.length_take]
        omega
      have hsum : n.toNat = size + (n.toNat - size) := by omega
      rw [hsub, ← List.take_add, ← hsum]
    · rw [List.drop_of_length_le (by omega), List.take_nil, List.append_nil,
        List.take_of_length_le (by omega), List.take_of_length_le (by omega)]

theorem part_of_not_goesOn (h : goesOn remaining = false) : part content remaining = [] := by
  cases remaining with
  | none => cases h
  | some n =>
    have hn : ¬ n > 0 := of_decide_eq_false h
    have hzero : n.toNat = 0 := by omega
    show content.take n.toNat = []
    rw [hzero, List.take_zero]

/-- different first chunks, different parts -/
theorem take_part (content : Bytes) (h : 0 ≤ nextSize chunkSize remaining) :
    (part content remaining).take (nextSize chunkSize remaining).toNat =
      content.take (nextSize chunkSize remaining).toNat := by
  cases remaining with
  | none => rfl
  | some n =>
    have hle : (nextSize chunkSize (some n)).toNat ≤ n.toNat := by
      have hmin : (nextSize chunkSize (some n)) = min (chunkSize : Int) n := rfl
      omega
    show (content.take n.toNat).take _ = _
    rw [List.take_take, Nat.min_eq_left hle]

/-- what a turn does while the loop goes on -/
theorem turn_cases (hchunk : 0 < chunkSize) (hgo : goesOn c.remaining = true) :
    (turn chunkSize c = .returned false ∧
        c.left.rest.take (nextSize chunkSize c.remaining).toNat ≠
          c.right.rest.take (nextSize chunkSize c.remaining).toNat) ∨
      (turn chunkSize c = .returned true ∧ c.left.rest = [] ∧ c.right.rest = []) ∨
      ∃ d chunk, turn chunkSize c = .again d ∧ chunk ≠ [] ∧
        chunk = c.left.rest.take (nextSize chunkSize c.remaining).toNat ∧
        chunk = c.right.rest.take (nextSize chunkSize c.remaining).toNat ∧
        d.left.rest = c.left.rest.drop chunk.length ∧ d.right.rest = c.right.rest.drop chunk.length ∧
        d.remaining = c.remaining.map fun n => n - (chunk.length : Int) := by
  have hpos := nextSize_pos hchunk hgo
  have hsize : (nextSize chunkSize c.remaining).toNat ≠ 0 := by omega
  have hleft := Stream.read_fst (s := c.left) (Int.le_of_lt hpos)
  have hright := Stream.read_fst (s := c.right) (Int.le_of_lt hpos)
  have hturn : turn chunkSize c = _ := if_pos hgo
  by_cases hne : (c.left.read (nextSize chunkSize c.remaining)).1 ≠
      (c.right.read (nextSize chunkSize c.remaining)).1
  · refine Or.inl ⟨hturn.trans (if_pos hne), ?_⟩
    rwa [hleft, hright] at hne
  · have heq := not_not.mp hne
    by_cases hempty : (c.left.read (nextSize chunkSize c.remaining)).1 = []
    · refine Or.inr (Or.inl ⟨hturn.trans ((if_neg hne).trans (if_pos hempty)), ?_, ?_⟩)
      · rw [hleft] at hempty
        exact eq_nil_of_take hsize hempty
      · rw [heq, hright] at hempty
        exact eq_nil_of_take hsize hempty
    · refine Or.inr (Or.inr ⟨_, (c.left.read (nextSize chunkSize c.remaining)).1,
        hturn.trans ((if_neg hne).trans (if_neg hempty)), hempty, hleft, heq.trans hright, ?_, ?_, rfl⟩)
      · exact Stream.rest_read c.left _
      · rw [heq]
        exact Stream.rest_read c.right _

theorem turn_stopped (h : goesOn c.remaining = false) : turn chunkSize c = .returned true := by
  rw [turn, h]
  rfl

theorem turn_returned (hchunk : 0 < chunkSize) {equal : Bool} (h : turn chunkSize c = .returned equal) :
    equal = decide c.Same := by
  cases hgo : goesOn c.remaining with
  | false =>
    have hequal : equal = true := by
      rw [turn_stopped hgo] at h
      cases h
      rfl
    have hsame : c.Same := by rw [Same, part_of_not_goesOn hgo, part_of_not_goesOn hgo]
    rw [hequal, decide_eq_true hsame]
  | true =>
    have hpos := nextSize_pos hchunk hgo
    rcases turn_cases hchunk hgo with ⟨hturn, hne⟩ | ⟨hturn, hleft, hright⟩ | ⟨d, _, hturn, -⟩
    · rw [hturn] at h
      cases h
      refine (decide_eq_false fun hsame => hne ?_).symm
      have htake := congrArg (List.take (nextSize chunkSize c.remaining).toNat) hsame
      rwa [take_part _ (Int.le_of_lt hpos), take_part _ (Int.le_of_lt hpos)] at htake
    · rw [hturn] at h
      cases h
      have hsame : c.Same := by rw [Same, hleft, hright]
      exact (decide_eq_true hsame).symm
    · rw [hturn] at h
      cases h

theorem turn_again (hchunk : 0 < chunkSize) (h : turn chunkSize c = .again d) :
    d.left.rest.length < c.left.rest.length ∧ (d.Same ↔ c.Same) := by
  cases hgo : goesOn c.remaining with
  | false =>
    rw [turn_stopped hgo] at h
    cases h
  | true =>
    have hpos := nextSize_pos hchunk hgo
    rcases turn_cases hchunk hgo with ⟨hturn, -⟩ | ⟨hturn, -⟩ | ⟨d', chunk, hturn, hne, hl, hr, hleft,
      hright, hremaining⟩
    · rw [hturn] at h
      cases h
    · rw [hturn] at h
      cases h
    · rw [hturn] at h
      cases h
      have hlength : 0 < chunk.length := List.length_pos_iff.mpr hne
      have hle : chunk.length ≤ c.left.rest.length := by
        rw [hl]
        exact List.length_take_le' _ _
      constructor
      · rw [hleft, List.length_drop]
        omega
      · have e1 := part_eq_append c.left.rest (Int.le_of_lt hpos)
        have e2 := part_eq_append c.right.rest (Int.le_of_lt hpos)
        rw [← hl] at e1
        rw [← hr] at e2
        rw [Same, Same, hleft, hright, hremaining, e1, e2, List.append_cancel_left_eq]

/-- **The loop ends, and decides whether the parts are the same.** -/
theorem comparison_returns (hchunk : 0 < chunkSize) (c : Comparison) :
    LoopReturns (turn chunkSize) c (decide c.Same) := by
  have hagain : ∀ c d : Comparison, True → turn chunkSize c = .again d →
      True ∧ d.left.rest.length < c.left.rest.length ∧
        ∀ equal, equal = decide d.Same → equal = decide c.Same := by
    intro c d _ h
    obtain ⟨hlt, hiff⟩ := turn_again hchunk h
    refine ⟨trivial, hlt, fun equal he => ?_⟩
    rw [he]
    exact decide_eq_decide.mpr hiff
  obtain ⟨equal, hreturns, rfl⟩ := loopReturns_rule (fun _ => True) (fun c => c.left.rest.length)
    (fun c equal => equal = decide c.Same) (fun _ _ _ h => turn_returned hchunk h) hagain (s := c) trivial
  exact hreturns

end

end Comparison

/-- The contents are the same, or their prefixes up to the limit. -/
def SamePrefix (left right : Bytes) : Option Nat → Prop
  | none => left = right
  | some limit => left.take (min limit left.length) = right.take (min limit right.length)

instance (left right : Bytes) (limit : Option Nat) : Decidable (SamePrefix left right limit) :=
  match limit with
  | none => inferInstanceAs (Decidable (left = right))
  | some _ => inferInstanceAs (Decidable (_ = _))

theorem take_min_length (content : Bytes) (limit : Nat) :
    content.take (min limit content.length) = content.take limit := by
  by_cases hle : limit ≤ content.length
  · rw [Nat.min_eq_left hle]
  · rw [Nat.min_eq_right (by omega), List.take_length, List.take_of_length_le (by omega)]

theorem same_start (left right : Bytes) (limit : Option Nat) :
    (Comparison.start left right limit).Same ↔ SamePrefix left right limit := by
  cases limit with
  | none =>
    show (Stream.ofFile left).rest = (Stream.ofFile right).rest ↔ left = right
    rw [Stream.rest_ofFile, Stream.rest_ofFile]
  | some limit =>
    show (Stream.ofFile left).rest.take limit = (Stream.ofFile right).rest.take limit ↔ _
    rw [Stream.rest_ofFile, Stream.rest_ofFile, SamePrefix, take_min_length, take_min_length]

theorem start_returns {chunkSize : Nat} (hchunk : 0 < chunkSize) (left right : Bytes)
    (limit : Option Nat) :
    LoopReturns (Comparison.turn chunkSize) (.start left right limit)
      (decide (SamePrefix left right limit)) := by
  rw [← decide_eq_decide.mpr (same_start left right limit)]
  exact Comparison.comparison_returns hchunk _

/-- With the size of the script, the loop gives the value of `filesEqual`. -/
theorem filesEqual_returns (left right : Bytes) (limit : Option Nat) :
    LoopReturns (Comparison.turn chunkSize) (.start left right limit) (filesEqual left right limit) := by
  have hchunk : 0 < chunkSize := by decide
  have hvalue : filesEqual left right limit = decide (SamePrefix left right limit) := by
    rw [Bool.eq_iff_iff, decide_eq_true_iff, filesEqual_iff]
    cases limit with
    | none => rfl
    | some limit =>
      show left.take limit = right.take limit ↔ _
      rw [SamePrefix, take_min_length, take_min_length]
  rw [hvalue]
  exact start_returns hchunk left right limit

/-- **The gate is the plain definition.** For every positive size of chunk the loop ends, and with
`True` exactly for the same content; and the run goes past the checks of the rebuilt payload exactly
when this is the front of the stock image. -/
theorem stockGate_exact {chunkSize : Nat} (hchunk : 0 < chunkSize) :
    (∀ (left right : Bytes) (limit : Option Nat) (equal : Bool),
      LoopReturns (Comparison.turn chunkSize) (.start left right limit) equal ↔
        equal = decide (SamePrefix left right limit)) ∧
    ∀ (tools : Tools) (inputs : Inputs) (temporary : PosixPath) (payloadSize : Nat)
      (disk unpacked made : Disk) (arguments : List String) (boot rebuilt : Bytes),
      unpackArgs tools inputs.bootImage.path (stockParts temporary) disk = .ok (arguments, unpacked) →
      runMkbootimg tools (stockRoundtrip temporary) arguments unpacked = .ok made →
      made inputs.bootImage.path = some boot → made (stockRoundtrip temporary) = some rebuilt →
      (roundTrip tools inputs temporary payloadSize disk = .ok (arguments, made) ↔
        payloadSize ≤ boot.length ∧ rebuilt = boot.take payloadSize) := by
  constructor
  · intro left right limit equal
    constructor
    · intro h
      exact loopReturns_unique h (start_returns hchunk left right limit)
    · rintro rfl
      exact start_returns hchunk left right limit
  · intro tools inputs temporary payloadSize disk unpacked made arguments boot rebuilt hunpack hmake
      hboot hrebuilt
    rw [roundTrip_eq_ok]
    constructor
    · rintro ⟨-, boot', hboot', hle, hsame⟩
      cases hboot.symm.trans hboot'
      exact ⟨hle, Option.some.inj (hrebuilt.symm.trans hsame)⟩
    · rintro ⟨hle, rfl⟩
      exact ⟨⟨unpacked, hunpack, hmake⟩, boot, hboot, hle, hrebuilt⟩

/-- tools that rebuild a given payload -/
def rebuildTools (rebuilt : Bytes) : Tools where
  infoImage _ _ := .ok []
  unpackBootimg _ _ _ := .ok ([], [])
  mkbootimg _ _ := .ok (some rebuilt)

def gateInputs : Inputs where
  bootImage := ⟨PosixPath.parse "/boot.img", by decide⟩
  kernel := sampleKernel
  ramdisk := none
  output := ⟨PosixPath.parse "/kernel-unsigned-do-not-flash.img", by decide⟩
  bootSha256 := ""

/-- a stock image of three bytes, of which two are the payload -/
def gateDisk : Disk := fun path => if path = PosixPath.parse "/boot.img" then some [1, 2, 3] else none

/-- Chunks of two bytes: a limit inside the second chunk, no limit, and a rebuilt payload. -/
theorem stockGate_small :
    LoopReturns (Comparison.turn 2) (.start [1, 2, 3, 4] [1, 2, 3, 5] (some 3)) true ∧
      ¬ LoopReturns (Comparison.turn 2) (.start [1, 2, 3, 4] [1, 2, 3, 5] none) true ∧
      roundTrip (rebuildTools [1, 2]) gateInputs (PosixPath.parse "/t") 2 gateDisk
        = .ok ([], gateDisk.write (stockRoundtrip (PosixPath.parse "/t")) [1, 2]) := by
  obtain ⟨hequal, hgate⟩ := @stockGate_exact 2 (by decide)
  have hne : PosixPath.parse "/boot.img" ≠ stockRoundtrip (PosixPath.parse "/t") := by decide +kernel
  refine ⟨(hequal _ _ _ _).mpr (by decide), fun h => ?_, ?_⟩
  · have hfalse := (hequal _ _ _ _).mp h
    revert hfalse
    decide
  · refine (hgate (rebuildTools [1, 2]) gateInputs (PosixPath.parse "/t") 2 gateDisk gateDisk _ []
      [1, 2, 3] [1, 2] rfl rfl ?_ ?_).mpr ⟨by decide, rfl⟩
    · exact (Function.update_of_ne hne _ _).trans (if_pos rfl)
    · exact Function.update_self _ _ _

end RT7.Boot
