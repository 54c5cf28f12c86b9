import Mathlib.Algebra.Group.Prod
import Mathlib.Data.Rat.Cast.Order
import Mathlib.Tactic.Linarith
import DdTrace.Lib.Rings
import DdTrace.Lib.Run

/-!
# The keep rate

* `KeepRateCalculator`, `step`: the calculator, with the increments of other threads between the
  three atomic parts of `UpdateBucket`.
* `History`: the counts themselves, without any bound, by bucket.
* `IsExact`: the sums, the buckets and the rate are those of the history.
* `isExact_run`: so they are in every run whose counts stay below `2 ^ 63` between two updates.

Source: `Agent/MovingAverageKeepRateCalculator.cs`
-/

namespace DdTrace.Agent.KeepRate

open DdTrace.Lib DdTrace.Lib.Rings

/-! ## The calculator -/

/-- Source: `MovingAverageKeepRateCalculator.cs`, its fields -/
structure KeepRateCalculator where
  windowSize : Nat
  dropped : List UInt32
  created : List UInt32
  index : Nat
  sumDrops : UInt64
  sumCreated : UInt64
  keepRate : ℚ
  latestDrops : Int64
  latestKeeps : Int64

/-- How far `UpdateBucket` has come, with its local variables. -/
inductive Update
  | idle
  | dropsTaken (previousDropped previousCreated latestDropped : UInt32)
  | bothTaken (previousDropped previousCreated latestDropped latestCreated : UInt32)

/-- The calculator and the thread that updates it. -/
structure State where
  calculator : KeepRateCalculator
  update : Update

/-- Source: `MovingAverageKeepRateCalculator.cs`, the constructor -/
def new (windowSize : Int) : Option State :=
  if windowSize < 0 ∨ windowSize > 100 then none
  else some {
    calculator :=
      { windowSize := windowSize.toNat
        dropped := List.replicate windowSize.toNat 0
        created := List.replicate windowSize.toNat 0
        index := 0
        sumDrops := 0
        sumCreated := 0
        keepRate := 0
        latestDrops := 0
        latestKeeps := 0 }
    update := .idle }

/-- `(uint)Math.Min(value, uint.MaxValue)`. -/
def capped (value : Int64) : UInt32 := UInt32.ofInt (min value.toInt 4294967295)

/-- The first part of an update: read the cells that will be replaced, take the drops. -/
def takeDrops (c : KeepRateCalculator) : Option State :=
  match c.dropped[c.index]?, c.created[c.index]? with
  | some previousDropped, some previousCreated =>
      some {
        calculator := { c with latestDrops := 0 }
        update := .dropsTaken previousDropped previousCreated (capped c.latestDrops) }
  | _, _ => none

/-- The second part of an update: take the keeps. -/
def takeKeeps (c : KeepRateCalculator) (previousDropped previousCreated latestDropped : UInt32) :
    State where
  calculator := { c with latestKeeps := 0 }
  update := .bothTaken previousDropped previousCreated latestDropped
    (capped (c.latestKeeps + latestDropped.toUInt64.toInt64))

/-- `1 - drops / created`, or zero where nothing was created. -/
def rate (drops created : Nat) : ℚ := if created = 0 then 0 else 1 - (drops : ℚ) / (created : ℚ)

/-- The last part of an update: the new sums, the new rate, the new cells. -/
def store (c : KeepRateCalculator)
    (previousDropped previousCreated latestDropped latestCreated : UInt32) : State :=
  let newSumDropped := c.sumDrops - previousDropped.toUInt64 + latestDropped.toUInt64
  let newSumCreated := c.sumCreated - previousCreated.toUInt64 + latestCreated.toUInt64
  { calculator :=
      { c with
        keepRate := rate newSumDropped.toNat newSumCreated.toNat
        sumDrops := newSumDropped
        sumCreated := newSumCreated
        dropped := c.dropped.set c.index latestDropped
        created := c.created.set c.index latestCreated
        index := (c.index + 1) % c.windowSize }
    update := .idle }

/-- What the threads do: increments, which throw for a negative count, and the next part of
`UpdateBucket`. -/
inductive Op
  | incrementKeeps (count : Int32)
  | incrementDrops (count : Int32)
  | updateBucket

/-- One operation.
Source: `MovingAverageKeepRateCalculator.cs`, `IncrementKeeps`, `IncrementDrops`, `UpdateBucket` -/
def step (s : State) : Op → Option State
  | .incrementKeeps count =>
      if count < 0 then some s
      else some { s with calculator :=
        { s.calculator with latestKeeps := s.calculator.latestKeeps + count.toInt64 } }
  | .incrementDrops count =>
      if count < 0 then some s
      else some { s with calculator :=
        { s.calculator with latestDrops := s.calculator.latestDrops + count.toInt64 } }
  | .updateBucket =>
      match s.update with
      | .idle => takeDrops s.calculator
      | .dropsTaken previousDropped previousCreated latestDropped =>
          some (takeKeeps s.calculator previousDropped previousCreated latestDropped)
      | .bothTaken previousDropped previousCreated latestDropped latestCreated =>
          some (store s.calculator previousDropped previousCreated latestDropped latestCreated)

/-- `GetKeepRate`. -/
def getKeepRate (s : State) : ℚ := s.calculator.keepRate

/-! ## The counts -/

/-- The traces that an update takes. -/
structure Bucket where
  drops : Nat
  keeps : Nat

/-- The largest number of 32 bits. -/
def cap : Nat := 4294967295

/-- The drops of a bucket, up to the cap. -/
def Bucket.dropped (b : Bucket) : Nat := min b.drops cap

/-- The traces of a bucket, up to the cap. -/
def Bucket.created (b : Bucket) : Nat := min (b.keeps + b.dropped) cap

/-- How far the update of a history has come. -/
inductive Taking
  | idle
  | drops (drops : Nat)
  | both (bucket : Bucket)

/-- The counts: the buckets from the latest one on, what is being taken and what is not yet. -/
structure History where
  buckets : List Bucket
  taking : Taking
  drops : Nat
  keeps : Nat

namespace History

/-- Nothing was counted. -/
def start : History where
  buckets := []
  taking := .idle
  drops := 0
  keeps := 0

/-- One operation on the counts. -/
def step (h : History) : Op → History
  | .incrementKeeps count => { h with keeps := h.keeps + count.toInt.toNat }
  | .incrementDrops count => { h with drops := h.drops + count.toInt.toNat }
  | .updateBucket =>
      match h.taking with
      | .idle => { h with taking := .drops h.drops, drops := 0 }
      | .drops drops => { h with taking := .both ⟨drops, h.keeps⟩, keeps := 0 }
      | .both bucket => { h with buckets := bucket :: h.buckets, taking := .idle }

/-- The counts after operations. -/
def run (ops : List Op) : History := ops.foldl step start

/-- The counts do not exceed what 64 bits hold. -/
def Fits (h : History) : Prop :=
  (∀ b ∈ h.buckets, b.drops < 2 ^ 63 ∧ b.keeps + b.dropped < 2 ^ 63) ∧
    match h.taking with
    | .idle => True
    | .drops drops => drops < 2 ^ 63
    | .both b => b.drops < 2 ^ 63 ∧ b.keeps + b.dropped < 2 ^ 63

end History

/-- The words of a bucket are numbers up to the cap, and the drops are among the traces. -/
theorem Bucket.dropped_le (b : Bucket) :
    b.dropped ≤ cap ∧ b.created ≤ cap ∧ b.dropped ≤ b.created := by
  unfold created dropped
  omega

/-! ## Words -/

/-- A number up to the cap as a word. -/
theorem toNat_word {n : Nat} (h : n ≤ cap) : (UInt32.ofNat n).toNat = n :=
  UInt32.toNat_ofNat_of_lt' (lt_of_le_of_lt h (by decide))

/-- A count that 64 bits hold is cut at the cap. -/
theorem capped_ofNat {n : Nat} (h : n < 2 ^ 63) :
    capped (Int64.ofNat n) = UInt32.ofNat (min n cap) := by
  have hint : (Int64.ofNat n).toInt = (n : Int) := Int64.toInt_ofNat_of_lt h
  have hmin : min (n : Int) 4294967295 = ((min n cap : Nat) : Int) := by
    unfold cap
    omega
  have hle : min n cap ≤ cap := Nat.min_le_right n cap
  have hmod : (((min n cap : Nat) : Int) % 2 ^ 32).toNat = min n cap := by
    unfold cap at *
    omega
  rw [capped, hint, hmin, UInt32.ofInt, hmod]

/-- The keeps and the drops of a bucket, added as 64 bits. -/
theorem capped_add {k d : Nat} (hd : d ≤ cap) (h : k + d < 2 ^ 63) :
    capped (Int64.ofNat k + (UInt32.ofNat d).toUInt64.toInt64) = UInt32.ofNat (min (k + d) cap) := by
  have hword : (UInt32.ofNat d).toUInt64.toInt64 = Int64.ofNat d := by
    have h64 : (UInt32.ofNat d).toUInt64 = UInt64.ofNat d := by
      rw [← UInt64.toNat_inj, UInt32.toNat_toUInt64, toNat_word hd]
      exact (UInt64.toNat_ofNat_of_lt' (lt_of_le_of_lt hd (by decide))).symm
    rw [h64, UInt64.toInt64_ofNat']
  rw [hword, ← Int64.ofNat_add, capped_ofNat h]

/-- An increment that is not negative is added. -/
theorem ofNat_add_count {count : Int32} (h : ¬ count < 0) (n : Nat) :
    Int64.ofNat n + count.toInt64 = Int64.ofNat (n + count.toInt.toNat) := by
  have hnonneg : 0 ≤ count.toInt := by
    rw [Int32.lt_iff_toInt_lt, Int32.toInt_zero] at h
    omega
  have hcount : count.toInt64 = Int64.ofNat count.toInt.toNat := by
    rw [← Int64.toInt_inj, Int32.toInt_toInt64, Int64.toInt_ofNat_of_lt, Int.toNat_of_nonneg hnonneg]
    have hlt := count.toInt_lt
    omega
  rw [hcount, ← Int64.ofNat_add]

/-! ## Sums of words -/

/-- The sum of words. -/
def total (l : List UInt32) : Nat := (l.map UInt32.toNat).sum

theorem total_set {l : List UInt32} {i : Nat} {old : UInt32} (h : l[i]? = some old) (v : UInt32) :
    total (l.set i v) + old.toNat = total l + v.toNat := by
  induction l generalizing i with
  | nil => cases h
  | cons w rest ih =>
      cases i with
      | zero =>
          have hold : w = old := by simpa using h
          subst hold
          simp only [total, List.set_cons_zero, List.map_cons, List.sum_cons]
          omega
      | succ i =>
          have hrest := ih (i := i) (by simpa using h)
          simp only [total, List.set_cons_succ, List.map_cons, List.sum_cons] at hrest ⊢
          omega

theorem total_le (l : List UInt32) : total l ≤ l.length * cap := by
  induction l with
  | nil => exact Nat.zero_le _
  | cons w rest ih =>
      have hw : w.toNat ≤ cap := Nat.le_of_lt_succ w.toNat_lt
      simp only [total, List.map_cons, List.sum_cons, List.length_cons] at ih ⊢
      rw [Nat.succ_mul]
      omega

/-- The new sum is the sum of the new cells, and what is subtracted is a part of the old sum. -/
theorem sum_store {l : List UInt32} {i : Nat} {old : UInt32} {sum : UInt64}
    (h : l[i]? = some old) (hlength : l.length ≤ 100) (hsum : sum.toNat = total l) (v : UInt32) :
    old.toNat ≤ sum.toNat ∧
      (sum - old.toUInt64 + v.toUInt64).toNat = total (l.set i v) := by
  have hset := total_set h v
  have hzero := total_set h 0
  have hv : v.toNat ≤ cap := Nat.le_of_lt_succ v.toNat_lt
  have hle : old.toNat ≤ sum.toNat := by
    have hz : (0 : UInt32).toNat = 0 := rfl
    omega
  have hbound : total (l.set i v) < 2 ^ 64 := by
    have hcap := total_le (l.set i v)
    rw [List.length_set] at hcap
    have hmul : l.length * cap ≤ 100 * cap := Nat.mul_le_mul_right cap hlength
    have hlt : 100 * cap < 2 ^ 64 := by decide
    omega
  refine ⟨hle, ?_⟩
  have hsub : (sum - old.toUInt64).toNat = sum.toNat - old.toNat := by
    rw [UInt64.toNat_sub_of_le _ _ (by rw [UInt64.le_iff_toNat_le]; simpa using hle)]
    simp
  rw [UInt64.toNat_add, hsub]
  have hmod : sum.toNat - old.toNat + v.toUInt64.toNat = total (l.set i v) := by
    have hv64 : v.toUInt64.toNat = v.toNat := by simp
    omega
  rw [hmod]
  exact Nat.mod_eq_of_lt hbound

/-! ## The calculator and the counts -/

/-- The word for the drops of a bucket. -/
def dropWord (b : Bucket) : UInt32 := UInt32.ofNat b.dropped

/-- The word for the traces of a bucket. -/
def createdWord (b : Bucket) : UInt32 := UInt32.ofNat b.created

/-- The local variables of the update are those of what is being taken. -/
def UpdateAgrees (c : KeepRateCalculator) : Update → Taking → Prop
  | .idle, .idle => True
  | .dropsTaken previousDropped previousCreated latestDropped, .drops drops =>
      c.dropped[c.index]? = some previousDropped ∧ c.created[c.index]? = some previousCreated ∧
        latestDropped = UInt32.ofNat (min drops cap)
  | .bothTaken previousDropped previousCreated latestDropped latestCreated, .both b =>
      c.dropped[c.index]? = some previousDropped ∧ c.created[c.index]? = some previousCreated ∧
        latestDropped = dropWord b ∧ latestCreated = createdWord b
  | _, _ => False

/-- What every operation preserves. -/
structure Agrees (size : Nat) (s : State) (h : History) : Prop where
  windowSize : s.calculator.windowSize = size
  size_le : size ≤ 100
  length_dropped : s.calculator.dropped.length = size
  length_created : s.calculator.created.length = size
  dropped : IsRing s.calculator.dropped s.calculator.index 0 (h.buckets.map dropWord)
  created : IsRing s.calculator.created s.calculator.index 0 (h.buckets.map createdWord)
  sumDrops : s.calculator.sumDrops.toNat = total s.calculator.dropped
  sumCreated : s.calculator.sumCreated.toNat = total s.calculator.created
  keepRate : s.calculator.keepRate = rate (total s.calculator.dropped) (total s.calculator.created)
  latestDrops : s.calculator.latestDrops = Int64.ofNat h.drops
  latestKeeps : s.calculator.latestKeeps = Int64.ofNat h.keeps
  update : UpdateAgrees s.calculator s.update h.taking

/-- An operation that leaves counts that fit found counts that fit. -/
theorem History.Fits.of_step {h : History} {op : Op} (hfits : (h.step op).Fits) : h.Fits := by
  cases op with
  | incrementKeeps count => exact hfits
  | incrementDrops count => exact hfits
  | updateBucket =>
      obtain ⟨hbuckets, htaking⟩ := hfits
      unfold History.step at hbuckets htaking
      cases hphase : h.taking with
      | idle =>
          simp only [hphase] at hbuckets
          exact ⟨hbuckets, by rw [hphase]; trivial⟩
      | drops drops =>
          simp only [hphase] at hbuckets htaking
          exact ⟨hbuckets, by rw [hphase]; exact htaking.1⟩
      | both b =>
          simp only [hphase] at hbuckets
          refine ⟨fun c hc => hbuckets c (List.mem_cons_of_mem b hc), ?_⟩
          rw [hphase]
          exact hbuckets b List.mem_cons_self

/-- A new calculator. -/
theorem agrees_new {size : Nat} (hpos : 0 < size) (hsize : size ≤ 100) :
    ∃ s, new size = some s ∧ Agrees size s History.start := by
  have hsome : ¬ ((size : Int) < 0 ∨ (size : Int) > 100) := by omega
  have htotal : total (List.replicate size 0) = 0 := by simp [total]
  refine ⟨_, if_neg hsome, ?_⟩
  exact
    { windowSize := rfl
      size_le := hsize
      length_dropped := by simp
      length_created := by simp
      dropped := IsRing.new hpos
      created := IsRing.new hpos
      sumDrops := htotal.symm
      sumCreated := htotal.symm
      keepRate := by
        change (0 : ℚ) = rate (total (List.replicate size 0)) (total (List.replicate size 0))
        rw [htotal]
        rfl
      latestDrops := rfl
      latestKeeps := rfl
      update := trivial }

/-- The last part of an update writes the bucket that was taken. -/
theorem Agrees.store {size : Nat} {s : State} {h : History} (hagrees : Agrees size s h) {b : Bucket}
    {previousDropped previousCreated : UInt32}
    (hdropped : s.calculator.dropped[s.calculator.index]? = some previousDropped)
    (hcreated : s.calculator.created[s.calculator.index]? = some previousCreated) :
    Agrees size
      (store s.calculator previousDropped previousCreated (dropWord b) (createdWord b))
      { h with buckets := b :: h.buckets, taking := .idle } := by
  obtain ⟨hsize, hle, hlengthDropped, hlengthCreated, hringDropped, hringCreated, hsumDrops,
    hsumCreated, hrate, hdrops, hkeeps, hupdate⟩ := hagrees
  have hnewDrops := (sum_store hdropped (by omega) hsumDrops (dropWord b)).2
  have hnewCreated := (sum_store hcreated (by omega) hsumCreated (createdWord b)).2
  have hpushDropped := hringDropped.push (dropWord b)
  have hpushCreated := hringCreated.push (createdWord b)
  rw [hlengthDropped, ← hsize] at hpushDropped
  rw [hlengthCreated, ← hsize] at hpushCreated
  exact
    { windowSize := hsize
      size_le := hle
      length_dropped := by rw [KeepRate.store, List.length_set, hlengthDropped]
      length_created := by rw [KeepRate.store, List.length_set, hlengthCreated]
      dropped := hpushDropped
      created := hpushCreated
      sumDrops := hnewDrops
      sumCreated := hnewCreated
      keepRate := by rw [KeepRate.store, hnewDrops, hnewCreated]
      latestDrops := hdrops
      latestKeeps := hkeeps
      update := trivial }

/-- Every operation preserves the agreement, as long as the counts fit. -/
theorem Agrees.step {size : Nat} {s : State} {h : History} (hagrees : Agrees size s h) (op : Op)
    (hfits : (h.step op).Fits) : ∃ t, step s op = some t ∧ Agrees size t (h.step op) := by
  cases op with
  | incrementKeeps count =>
      unfold KeepRate.step
      by_cases hneg : count < 0
      · have hzero : count.toInt.toNat = 0 := by
          rw [Int32.lt_iff_toInt_lt, Int32.toInt_zero] at hneg
          omega
        exact ⟨s, if_pos hneg, { hagrees with
          latestKeeps := by rw [hagrees.latestKeeps, History.step, hzero, Nat.add_zero] }⟩
      · exact ⟨_, if_neg hneg, { hagrees with
          latestKeeps := by rw [hagrees.latestKeeps, ofNat_add_count hneg, History.step] }⟩
  | incrementDrops count =>
      unfold KeepRate.step
      by_cases hneg : count < 0
      · have hzero : count.toInt.toNat = 0 := by
          rw [Int32.lt_iff_toInt_lt, Int32.toInt_zero] at hneg
          omega
        exact ⟨s, if_pos hneg, { hagrees with
          latestDrops := by rw [hagrees.latestDrops, History.step, hzero, Nat.add_zero] }⟩
      · exact ⟨_, if_neg hneg, { hagrees with
          latestDrops := by rw [hagrees.latestDrops, ofNat_add_count hneg, History.step] }⟩
  | updateBucket =>
      have hupdate := hagrees.update
      unfold KeepRate.step
      cases hstate : s.update with
      | idle =>
          cases htaking : h.taking with
          | drops drops => rw [hstate, htaking] at hupdate; cases hupdate
          | both b => rw [hstate, htaking] at hupdate; cases hupdate
          | idle =>
              have hcellDropped := List.getElem?_eq_getElem hagrees.dropped.index_lt
              have hcellCreated := List.getElem?_eq_getElem hagrees.created.index_lt
              have hdrops : h.drops < 2 ^ 63 := by
                simpa [History.step, htaking] using hfits.2
              have hword := capped_ofNat hdrops
              rw [← hagrees.latestDrops] at hword
              refine ⟨_, by simp only [takeDrops, hcellDropped, hcellCreated]; rfl, ?_⟩
              simp only [History.step, htaking]
              exact { hagrees with latestDrops := rfl, update := ⟨hcellDropped, hcellCreated, hword⟩ }
      | dropsTaken previousDropped previousCreated latestDropped =>
          cases htaking : h.taking with
          | idle => rw [hstate, htaking] at hupdate; cases hupdate
          | both b => rw [hstate, htaking] at hupdate; cases hupdate
          | drops drops =>
              rw [hstate, htaking] at hupdate
              obtain ⟨hcellDropped, hcellCreated, rfl⟩ := hupdate
              have hkeeps : h.keeps + min drops cap < 2 ^ 63 := by
                have hboth := hfits.2
                simp only [History.step, htaking] at hboth
                exact hboth.2
              have hword := capped_add (Nat.min_le_right drops cap) hkeeps
              rw [← hagrees.latestKeeps] at hword
              refine ⟨_, rfl, ?_⟩
              simp only [History.step, htaking]
              exact { hagrees with
                latestKeeps := rfl
                update := ⟨hcellDropped, hcellCreated, rfl, hword⟩ }
      | bothTaken previousDropped previousCreated latestDropped latestCreated =>
          cases htaking : h.taking with
          | idle => rw [hstate, htaking] at hupdate; cases hupdate
          | drops drops => rw [hstate, htaking] at hupdate; cases hupdate
          | both b =>
              rw [hstate, htaking] at hupdate
              obtain ⟨hcellDropped, hcellCreated, rfl, rfl⟩ := hupdate
              refine ⟨_, rfl, ?_⟩
              simp only [History.step, htaking]
              exact hagrees.store hcellDropped hcellCreated

/-- A run keeps the calculator in agreement with the counts. -/
theorem agrees_run {size : Nat} (hpos : 0 < size) (hsize : size ≤ 100) (ops : List Op)
    (hfits : (History.run ops).Fits) :
    ∃ s, ((new size).bind fun s => runOps step s ops) = some s ∧
      Agrees size s (History.run ops) := by
  obtain ⟨s₀, hnew, h₀⟩ := agrees_new hpos hsize
  rw [hnew, Option.bind_some]
  clear hnew
  induction ops using List.reverseRecOn with
  | nil => exact ⟨s₀, rfl, h₀⟩
  | append_singleton ops op ih =>
      have hrun : History.run (ops ++ [op]) = (History.run ops).step op := by simp [History.run]
      rw [hrun] at hfits ⊢
      obtain ⟨s, hs, hagrees⟩ := ih hfits.of_step
      obtain ⟨t, ht, hagrees'⟩ := hagrees.step op hfits
      exact ⟨t, by rw [runOps_concat, hs]; exact ht, hagrees'⟩

/-! ## Exactness -/

/-- The traces in the latest buckets. -/
def windowSum (size : Nat) (h : History) (count : Bucket → Nat) : Nat :=
  ((h.buckets.take size).map count).sum

/-- The sums are those of the cells, of which nothing is subtracted that is not in them, the cells
are the latest buckets, and the rate is that of these buckets. -/
structure IsExact (size : Nat) (s : State) (h : History) : Prop where
  sumDrops : s.calculator.sumDrops.toNat = (s.calculator.dropped.map UInt32.toNat).sum
  sumCreated : s.calculator.sumCreated.toNat = (s.calculator.created.map UInt32.toNat).sum
  noWrap : ∀ previousDropped previousCreated latestDropped latestCreated,
    s.update = .bothTaken previousDropped previousCreated latestDropped latestCreated →
      previousDropped.toNat ≤ s.calculator.sumDrops.toNat ∧
        previousCreated.toNat ≤ s.calculator.sumCreated.toNat
  dropped : s.calculator.dropped.Perm (window size 0 (h.buckets.map dropWord))
  created : s.calculator.created.Perm (window size 0 (h.buckets.map createdWord))
  dropped_le_created : ∀ p ∈ s.calculator.dropped.zip s.calculator.created, p.1 ≤ p.2
  keepRate : getKeepRate s = rate (windowSum size h Bucket.dropped) (windowSum size h Bucket.created)
  range : 0 ≤ getKeepRate s ∧ getKeepRate s ≤ 1

/-- Blanks add nothing to the sum of a window. -/
theorem total_window {word : Bucket → UInt32} {count : Bucket → Nat}
    (hword : ∀ b, (word b).toNat = count b) (size : Nat) (h : History) :
    total (window size 0 (h.buckets.map word)) = windowSum size h count := by
  have hcount : UInt32.toNat ∘ word = count := funext hword
  rw [total, window, windowSum, List.take_append, List.map_append, List.sum_append,
    ← List.map_take, List.map_map, hcount]
  simp

theorem dropWord_toNat (b : Bucket) : (dropWord b).toNat = b.dropped := toNat_word b.dropped_le.1

theorem createdWord_toNat (b : Bucket) : (createdWord b).toNat = b.created :=
  toNat_word b.dropped_le.2.1

/-- The rate of sums lies between zero and one. -/
theorem rate_range {drops created : Nat} (h : drops ≤ created) :
    0 ≤ rate drops created ∧ rate drops created ≤ 1 := by
  unfold rate
  split
  · exact ⟨le_refl 0, zero_le_one⟩
  · have hcreated : (0 : ℚ) ≤ (created : ℚ) := Nat.cast_nonneg _
    have hle : (drops : ℚ) ≤ (created : ℚ) := by exact_mod_cast h
    have hquotient : (drops : ℚ) / (created : ℚ) ≤ 1 := div_le_one_of_le₀ hle hcreated
    have hnonneg : (0 : ℚ) ≤ (drops : ℚ) / (created : ℚ) := div_nonneg (Nat.cast_nonneg _) hcreated
    constructor <;> linarith

/-- The cells of one place are those of one bucket. -/
theorem Agrees.dropped_le_created {size : Nat} {s : State} {h : History} (hagrees : Agrees size s h)
    {p : UInt32 × UInt32} (hp : p ∈ s.calculator.dropped.zip s.calculator.created) : p.1 ≤ p.2 := by
  have hlength : s.calculator.dropped.length = s.calculator.created.length := by
    rw [hagrees.length_dropped, hagrees.length_created]
  have hzip := hagrees.dropped.zip hagrees.created hlength
  rcases mem_window (hzip.perm_window.mem_iff.mp hp) with hmem | rfl
  · obtain ⟨b, -, rfl⟩ := List.mem_map.mp hmem
    rw [UInt32.le_iff_toNat_le, dropWord_toNat, createdWord_toNat]
    exact b.dropped_le.2.2
  · exact UInt32.le_refl 0

/-- Agreement is exactness. -/
theorem Agrees.isExact {size : Nat} {s : State} {h : History} (hagrees : Agrees size s h) :
    IsExact size s h := by
  have hpermDropped := hagrees.dropped.perm_window
  have hpermCreated := hagrees.created.perm_window
  rw [hagrees.length_dropped] at hpermDropped
  rw [hagrees.length_created] at hpermCreated
  have hsumDropped : total s.calculator.dropped = windowSum size h Bucket.dropped := by
    rw [← total_window dropWord_toNat]
    exact (hpermDropped.map UInt32.toNat).sum_eq
  have hsumCreated : total s.calculator.created = windowSum size h Bucket.created := by
    rw [← total_window createdWord_toNat]
    exact (hpermCreated.map UInt32.toNat).sum_eq
  have hrate : getKeepRate s =
      rate (windowSum size h Bucket.dropped) (windowSum size h Bucket.created) := by
    rw [getKeepRate, hagrees.keepRate, hsumDropped, hsumCreated]
  have hle : windowSum size h Bucket.dropped ≤ windowSum size h Bucket.created :=
    List.sum_le_sum fun b _ => b.dropped_le.2.2
  exact
    { sumDrops := hagrees.sumDrops
      sumCreated := hagrees.sumCreated
      noWrap := by
        intro previousDropped previousCreated latestDropped latestCreated hstate
        have hupdate := hagrees.update
        rw [hstate] at hupdate
        cases htaking : h.taking with
        | idle => rw [htaking] at hupdate; cases hupdate
        | drops drops => rw [htaking] at hupdate; cases hupdate
        | both b =>
            rw [htaking] at hupdate
            have hdropped := hagrees.length_dropped
            have hcreated := hagrees.length_created
            have hsize := hagrees.size_le
            exact ⟨(sum_store hupdate.1 (by omega) hagrees.sumDrops 0).1,
              (sum_store hupdate.2.1 (by omega) hagrees.sumCreated 0).1⟩
      dropped := hpermDropped
      created := hpermCreated
      dropped_le_created := fun p hp => hagrees.dropped_le_created hp
      keepRate := hrate
      range := by rw [hrate]; exact rate_range hle }

/-! ## Every increment -/

/-- What an operation counts. -/
def Op.counts : Op → Nat × Nat
  | .incrementKeeps count => (0, count.toInt.toNat)
  | .incrementDrops count => (count.toInt.toNat, 0)
  | .updateBucket => (0, 0)

/-- What is being taken. -/
def Taking.counts : Taking → Nat × Nat
  | .idle => (0, 0)
  | .drops count => (count, 0)
  | .both b => (b.drops, b.keeps)

/-- The counts of a history: in its buckets, in what is being taken and in what is not yet. -/
def History.counts (h : History) : Nat × Nat :=
  (h.buckets.map fun b => (b.drops, b.keeps)).sum + h.taking.counts + (h.drops, h.keeps)

/-- An operation adds to the counts what it counts, and moves the others. -/
theorem History.counts_step (h : History) (op : Op) :
    (h.step op).counts = h.counts + op.counts := by
  cases op with
  | incrementKeeps count =>
      ext <;> simp [History.step, counts, Op.counts, Nat.add_assoc]
  | incrementDrops count =>
      ext <;> simp [History.step, counts, Op.counts, Nat.add_assoc]
  | updateBucket =>
      unfold History.step counts
      cases h.taking <;> ext <;> simp [Op.counts, Taking.counts] <;> omega

/-- Every increment is in the counts once. -/
theorem History.counts_run (ops : List Op) :
    (History.run ops).counts = (ops.map Op.counts).sum := by
  induction ops using List.reverseRecOn with
  | nil => rfl
  | append_singleton ops op ih =>
      have hrun : History.run (ops ++ [op]) = (History.run ops).step op := by simp [History.run]
      rw [hrun, History.counts_step, ih, List.map_append, List.sum_append]
      simp

/-- In every run whose counts stay below `2 ^ 63` between two updates the calculator is exact, and
every increment is in one bucket. -/
theorem isExact_run (size : Nat) (hpos : 0 < size) (hsize : size ≤ 100) (ops : List Op)
    (hfits : (History.run ops).Fits) :
    ∃ s, ((new size).bind fun s => runOps step s ops) = some s ∧
      IsExact size s (History.run ops) ∧
      (History.run ops).counts = (ops.map Op.counts).sum := by
  obtain ⟨s, hs, hagrees⟩ := agrees_run hpos hsize ops hfits
  exact ⟨s, hs, hagrees.isExact, History.counts_run ops⟩

/-- A keep and a drop, taken by one update. -/
def keepAndDrop : List Op :=
  [.incrementKeeps 1, .incrementDrops 1, .updateBucket, .updateBucket, .updateBucket]

theorem isExact_run_keepAndDrop :
    ∃ s, ((new (1 : Nat)).bind fun s => runOps step s keepAndDrop) = some s ∧
      IsExact 1 s (History.run keepAndDrop) ∧
      (History.run keepAndDrop).counts = (keepAndDrop.map Op.counts).sum :=
  isExact_run 1 (by decide) (by decide) keepAndDrop
    ⟨by intro b hb; obtain rfl := List.mem_singleton.mp hb; decide, trivial⟩

/-! ## Too many keeps -/

/-- Keeps that are counted one after another. -/
theorem runOps_replicate (n : Nat) (s : State) (count : Int32) (hcount : ¬ count < 0) :
    runOps step s (List.replicate n (.incrementKeeps count)) =
      some { s with calculator := { s.calculator with
        latestKeeps := s.calculator.latestKeeps + Int64.ofNat (n * count.toInt.toNat) } } := by
  induction n with
  | zero => simp
  | succ n ih =>
      rw [List.replicate_succ', runOps_concat, ih, Option.bind_some, step, if_neg hcount,
        Nat.succ_mul, ← ofNat_add_count hcount, ← Int64.add_assoc]

/-- The keeps of the counterexample: `2 ^ 64 - 1` of them, and then a drop and an update. -/
def manyKeeps : List Op :=
  List.replicate 8589934596 (.incrementKeeps 2147483647) ++
    [.incrementKeeps 3, .incrementDrops 1, .updateBucket, .updateBucket, .updateBucket]

/-- A bucket with a drop and without a trace. -/
theorem dropped_gt_created :
    ∃ s, ((new 1).bind fun s => runOps step s manyKeeps) = some s ∧
      s.calculator.dropped = [1] ∧ s.calculator.created = [0] := by
  obtain ⟨s₀, hnew⟩ : ∃ s₀, new 1 = some s₀ := ⟨_, rfl⟩
  have hcount : ¬ (2147483647 : Int32) < 0 := by decide
  rw [hnew, Option.bind_some, manyKeeps, runOps_append, runOps_replicate _ _ _ hcount,
    Option.bind_some]
  cases hnew
  exact ⟨_, rfl, rfl, rfl⟩

end DdTrace.Agent.KeepRate
