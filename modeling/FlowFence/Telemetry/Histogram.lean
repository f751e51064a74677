import FlowFence.Binary64.Basic

/-!
# Histograms

A histogram sorts measured values into buckets by upper bounds that ascend. A value belongs to the
first bucket whose bound it does not exceed; one above all bounds belongs to none, but is counted.
-/

namespace FlowFence

structure Bucket where
  bound : Binary64
  count : Nat
deriving DecidableEq

structure Histogram where
  buckets : List Bucket
  sum : Binary64
  total : Nat
deriving DecidableEq

namespace Histogram

def ofBounds (bounds : List Binary64) : Histogram :=
  ⟨bounds.map fun bound => ⟨bound, 0⟩, .zero, 0⟩

/-- Count a value in the first bucket that it belongs to. -/
def place (value : Binary64) : List Bucket → List Bucket
  | [] => []
  | bucket :: buckets =>
      if value.le bucket.bound then { bucket with count := bucket.count + 1 } :: buckets
      else bucket :: place value buckets

def observe (histogram : Histogram) (value : Binary64) : Histogram :=
  ⟨place value histogram.buckets, histogram.sum.add value, histogram.total + 1⟩

/-- Each bound with the number of values in its bucket and all buckets before. -/
def cumulativeFrom (before : Nat) : List Bucket → List (Binary64 × Nat)
  | [] => []
  | bucket :: buckets =>
      (bucket.bound, before + bucket.count) :: cumulativeFrom (before + bucket.count) buckets

def cumulative (histogram : Histogram) : List (Binary64 × Nat) :=
  cumulativeFrom 0 histogram.buckets

/-- A number of bounds, each the previous one times a factor, rounded each time. -/
def geometricBounds (start factor : Binary64) : Nat → List Binary64
  | 0 => []
  | count + 1 => start :: geometricBounds (start.mul factor) factor count

@[simp] theorem total_ofBounds (bounds : List Binary64) : (ofBounds bounds).total = 0 := rfl

@[simp] theorem total_observe (histogram : Histogram) (value : Binary64) :
    (histogram.observe value).total = histogram.total + 1 := rfl

@[simp] theorem length_place (value : Binary64) (buckets : List Bucket) :
    (place value buckets).length = buckets.length := by
  induction buckets with
  | nil => rfl
  | cons bucket buckets ih =>
      unfold place
      split
      · rfl
      · simp [ih]

@[simp] theorem length_cumulativeFrom (before : Nat) (buckets : List Bucket) :
    (cumulativeFrom before buckets).length = buckets.length := by
  induction buckets generalizing before with
  | nil => rfl
  | cons bucket buckets ih => simp [cumulativeFrom, ih]

end Histogram

end FlowFence
