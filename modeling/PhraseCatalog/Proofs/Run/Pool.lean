import Mathlib.Data.Finset.Card
import Mathlib.Data.Finset.Range
import PhraseCatalog.Run.Resolve

/-! A pool of workers that translates phrases while their results are used in order: its steps in
whatever order they come, what is true in every state that is reached, and what is left when nothing
is under way any more. -/

set_option autoImplicit false

namespace PhraseCatalog.Run

open Emit Files

/-! ## Using results -/

/-- The rows and new records so far, and what has gone wrong. -/
structure Progress where
  rows : Rows
  records : Catalog := []
  failure : Option Failure := none

/-- Uses the result of one phrase; after a failure nothing is used any more. -/
def Progress.use (translate : Model.Translator) (progress : Progress) (phrase : String) :
    Progress :=
  match progress.failure, (translate phrase).outcome with
  | some _, _ => progress
  | none, .error fault => { progress with failure := some (.translation fault) }
  | none, .ok none => progress
  | none, .ok (some record) =>
    match Store.insertRecord progress.rows phrase record with
    | .error fault => { progress with failure := some (.store fault) }
    | .ok rows => { progress with rows := rows, records := progress.records ++ [(phrase, record)] }

/-! ## Pools -/

structure Job where
  translate : Model.Translator
  workers : Nat
  tasks : List String
  rows : Rows

/-- How far a pool has come: how many tasks are handed in and how many of them, first come first
served, are taken by a worker; which of those are finished; how many results are used and what they
have come to; whether the tasks that nobody took are cancelled. -/
structure Pool where
  progress : Progress
  submitted : Nat := 0
  taken : Nat := 0
  finished : Finset Nat := ∅
  used : Nat := 0
  cancelled : Bool := false

namespace Job

def start (job : Job) : Pool := { progress := { rows := job.rows } }

/-- One step of a pool, by the one who hands in and uses, or by a worker. Results are used in order
once all is handed in; after the last one or a failure, what is left is cancelled. -/
inductive Step (job : Job) : Pool → Pool → Prop
  | submit {pool : Pool} (h : pool.submitted < job.tasks.length) :
    Step job pool { pool with submitted := pool.submitted + 1 }
  | take {pool : Pool} (running : pool.cancelled = false) (h : pool.taken < pool.submitted)
    (free : pool.taken < pool.finished.card + job.workers) :
    Step job pool { pool with taken := pool.taken + 1 }
  | finish {pool : Pool} {i : Nat} (h : i < pool.taken) (new : i ∉ pool.finished) :
    Step job pool { pool with finished := insert i pool.finished }
  | use {pool : Pool} {phrase : String} (all : pool.submitted = job.tasks.length)
    (h : pool.progress.failure = none) (done : pool.used ∈ pool.finished)
    (phrase_eq : job.tasks[pool.used]? = some phrase) :
    Step job pool { pool with
      used := pool.used + 1
      progress := pool.progress.use job.translate phrase }
  | cancel {pool : Pool} (running : pool.cancelled = false)
    (all : pool.submitted = job.tasks.length)
    (h : pool.progress.failure ≠ none ∨ pool.used = job.tasks.length) :
    Step job pool { pool with cancelled := true }

inductive Steps (job : Job) : Nat → Pool → Pool → Prop
  | refl (pool : Pool) : Steps job 0 pool pool
  | step {n : Nat} {pool pool' pool'' : Pool} (h : Steps job n pool pool')
    (last : job.Step pool' pool'') : Steps job (n + 1) pool pool''

def Reaches (job : Job) (pool : Pool) : Prop := ∃ n, job.Steps n job.start pool

end Job

/-- Nothing is taken any more and nothing is under way. -/
def Pool.Final (pool : Pool) : Prop := pool.cancelled = true ∧ pool.finished.card = pool.taken

/-- What a pool has done so far, step by step. -/
def Pool.work (pool : Pool) : Nat :=
  pool.submitted + pool.taken + pool.finished.card + pool.used + pool.cancelled.toNat

/-! ## What every state keeps -/

/-- The order in which tasks get on, and what the used results come to. -/
structure Job.Invariant (job : Job) (pool : Pool) : Prop where
  submitted_le : pool.submitted ≤ job.tasks.length
  taken_le : pool.taken ≤ pool.submitted
  finished_lt : ∀ i ∈ pool.finished, i < pool.taken
  used_le : pool.used ≤ pool.taken
  progress_eq : pool.progress
    = (job.tasks.take pool.used).foldl (Progress.use job.translate) { rows := job.rows }
  settled : pool.cancelled = true → pool.submitted = job.tasks.length
    ∧ (pool.progress.failure ≠ none ∨ pool.used = job.tasks.length)

namespace Job
variable {job : Job} {pool pool' : Pool}

theorem invariant_start (job : Job) : job.Invariant job.start where
  submitted_le := Nat.zero_le _
  taken_le := Nat.le_refl 0
  finished_lt := by simp [start]
  used_le := Nat.le_refl 0
  progress_eq := rfl
  settled := by simp [start]

theorem Invariant.step (h : job.Invariant pool) (hs : job.Step pool pool') :
    job.Invariant pool' := by
  obtain ⟨hsubmitted, htaken, hfinished, hused, hprogress, hsettled⟩ := h
  cases hs with
  | submit hlt =>
    refine ⟨hlt, Nat.le_succ_of_le htaken, hfinished, hused, hprogress, fun hc => ?_⟩
    have := (hsettled hc).1
    omega
  | take hrunning hlt hfree =>
    refine ⟨hsubmitted, hlt, fun i hi => Nat.lt_succ_of_lt (hfinished i hi),
      Nat.le_succ_of_le hused, hprogress, fun hc => ?_⟩
    rw [hrunning] at hc
    cases hc
  | finish hlt hnew =>
    refine ⟨hsubmitted, htaken, fun j hj => ?_, hused, hprogress, hsettled⟩
    rcases Finset.mem_insert.mp hj with rfl | hj
    · exact hlt
    · exact hfinished j hj
  | use hall hfailure hdone hat =>
    refine ⟨hsubmitted, htaken, hfinished, hfinished _ hdone, ?_, fun hc => ?_⟩
    · rw [List.take_add_one, hat, List.foldl_append, ← hprogress]
      rfl
    · have hlt := (List.getElem?_eq_some_iff.mp hat).1
      rcases (hsettled hc).2 with hne | hend
      · exact absurd hfailure hne
      · omega
  | cancel hopen hall hend =>
    exact ⟨hsubmitted, htaken, hfinished, hused, hprogress, fun _ => ⟨hall, hend⟩⟩

theorem Steps.invariant {n : Nat} (h : job.Steps n job.start pool) : job.Invariant pool := by
  generalize hstart : job.start = first at h
  induction h with
  | refl pool => exact hstart ▸ invariant_start job
  | step h hs ih => exact (ih hstart).step hs

theorem Reaches.invariant (h : job.Reaches pool) : job.Invariant pool :=
  let ⟨_, hsteps⟩ := h
  hsteps.invariant

theorem Reaches.start (job : Job) : job.Reaches job.start := ⟨0, .refl job.start⟩

theorem Reaches.step (h : job.Reaches pool) (hs : job.Step pool pool') : job.Reaches pool' :=
  let ⟨n, hsteps⟩ := h
  ⟨n + 1, hsteps.step hs⟩

theorem Invariant.card_le (h : job.Invariant pool) : pool.finished.card ≤ pool.taken := by
  have hsub : pool.finished ⊆ Finset.range pool.taken :=
    fun i hi => Finset.mem_range.mpr (h.finished_lt i hi)
  simpa using Finset.card_le_card hsub

/-! ## Every pool comes to an end -/

theorem Step.work_eq (h : job.Step pool pool') : pool'.work = pool.work + 1 := by
  cases h with
  | submit | take | use =>
    simp only [Pool.work]
    omega
  | finish hlt hnew =>
    simp only [Pool.work, Finset.card_insert_of_notMem hnew]
    omega
  | cancel hopen hall hend => simp [Pool.work, hopen]

theorem Steps.work_eq {n : Nat} (h : job.Steps n pool pool') : pool'.work = pool.work + n := by
  induction h with
  | refl pool => rfl
  | step _ hs ih => rw [hs.work_eq, ih, Nat.add_assoc]

theorem Steps.length_le {n : Nat} (h : job.Steps n job.start pool) :
    n ≤ 4 * job.tasks.length + 1 := by
  have hinv := h.invariant
  have hwork := h.work_eq
  have hcard := hinv.card_le
  have hstart : job.start.work = 0 := rfl
  have hcancelled : pool.cancelled.toNat ≤ 1 := Bool.toNat_le _
  have := hinv.submitted_le
  have := hinv.taken_le
  have := hinv.used_le
  rw [hstart, Pool.work] at hwork
  omega

end Job
end PhraseCatalog.Run
