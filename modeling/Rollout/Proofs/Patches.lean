import Rollout.Proofs.Configuration
import Rollout.Proofs.Simulation

/-!
# No patch is lost

Clients patch the values of the application at the same time.  Each patch reads the stored values,
merges, validates and writes, in steps between which others take theirs.  What is stored in the end
is nevertheless what comes of the accepted patches one after the other, in the order in which their
clients took the lock: a patch that was rejected or refused has contributed nothing, and whoever is
answered with values gets those right after the own patch.
-/

namespace Rollout

variable {S : Type}

/-- The patch that an answered request has contributed. -/
def Configuration.accepted? : Configuration → Answer S → Option ConfigValues
  | .values patch, .values _ => some patch
  | _, _ => none

/-- The patches of these clients that were accepted, in the order given. -/
def acceptedPatches (requests : List Configuration)
    (q : Pool (Site S) (Answer S × Option (Job S))) (order : List Nat) : List ConfigValues :=
  answeredIn Configuration.accepted? requests q order

/-- No patch is lost: what is stored and what clients are told is what comes of the accepted patches
one after the other, in the order in which their clients took the lock. -/
structure PatchesKept (w : Workflow S) (initial : ConfigValues) (requests : List Configuration)
    (l : Ledger S) (q : Pool (Site S) (Answer S × Option (Job S))) : Prop where
  /-- This is the order of the generations of the locks. -/
  ascending : (l.acquisitions.map (·.2.generation)).Pairwise (· < ·)
  once : (l.acquisitions.map (·.1)).Nodup
  stored : q.state.payload.values =
    (acceptedPatches requests q (l.acquisitions.map (·.1))).foldl AppConfigSchema.merge initial
  /-- Whoever is answered with values has had a patch accepted, and gets the values right after
  it. -/
  answered : ∀ (i : Nat) (v : ConfigValues) (job : Option (Job S)),
    q.result? i = some (.values v, job) → ∃ patch earlier lock later,
      requests[i]? = some (.values patch) ∧ l.acquisitions = earlier ++ (i, lock) :: later ∧
      v = w.schema.resolve (AppConfigSchema.merge
        ((acceptedPatches requests q (earlier.map (·.1))).foldl AppConfigSchema.merge initial)
        patch)

variable [DecidableEq S] {w : Workflow S} {requests : List Configuration}
  {q : Pool (Site S) (Answer S × Option (Job S))}

/-- An answered configuration has left the values that it met, with its patch merged in if it was
accepted. -/
theorem Workflow.Served.values_eq {c : Configuration} {answered : Answer S × Option (Job S)}
    {lock : Lock} {first last : Core S Inputs}
    (served : w.Served c answered (.past lock first last)) :
    last.data.values =
      (c.accepted? answered.1).toList.foldl AppConfigSchema.merge first.data.values := by
  cases served with
  | forbidden => cases c <;> simp [Configuration.accepted?]
  | rejected => cases c <;> simp [Configuration.accepted?]
  | accepted has can configured =>
    rw [Core.data_entered]
    cases c with
    | values patch =>
      obtain ⟨rfl, rfl⟩ := Workflow.configured_values configured
      rfl
    | settings c =>
      obtain ⟨rfl, rfl⟩ := Workflow.configured_settings configured
      rfl

/-- A client that is answered with values had the lock, and found the values that it has patched. -/
theorem Workflow.Served.of_values {c : Configuration} {v : ConfigValues} {job : Option (Job S)}
    {τ : Tenure (Core S Inputs)} (served : w.Served c (.values v, job) τ) :
    ∃ patch lock first last, c = .values patch ∧ τ = .past lock first last ∧
      v = w.schema.resolve (AppConfigSchema.merge first.data.values patch) := by
  cases served with
  | accepted has can configured lock =>
    cases c with
    | values patch =>
      obtain ⟨-, answer⟩ := Workflow.configured_values configured
      exact ⟨patch, lock, _, _, rfl, rfl, Answer.values.inj answer⟩
    | settings c =>
      obtain ⟨-, answer⟩ := Workflow.configured_settings configured
      nomatch answer

/-- The values that a chain of tenures leads to. -/
theorem values_of_chain {tenures : Nat → Tenure (Core S Inputs)} {initial now : Core S Inputs}
    {taken : List (Nat × Lock)} (chain : Tenure.Chain tenures initial taken now)
    (served : ∀ x ∈ taken, ∃ answered, q.result? x.1 = some answered ∧
      w.ServedAt requests x.1 answered (tenures x.1)) :
    now.data.values =
      (acceptedPatches requests q (taken.map (·.1))).foldl AppConfigSchema.merge
        initial.data.values := by
  induction chain with
  | nil => rfl
  | @snoc taken i lock first last earlier ended ih =>
    obtain ⟨answered, result, c, found, served_i⟩ := served (i, lock) (by simp)
    have before := ih fun x mem ↦ served x (List.mem_append_left _ mem)
    rw [ended] at served_i
    unfold acceptedPatches at before ⊢
    rw [served_i.values_eq, before, List.map_append, List.map_singleton, answeredIn_snoc,
      answered?_eq found result, List.foldl_append]

variable [ToString S]

/-- However the steps of the requests are interleaved, no patch is lost. -/
theorem no_patch_lost (w : Workflow S) (s : Site S) (requests : List Configuration)
    (q : Pool (Site S) (Answer S × Option (Job S))) (steps : (w.serving requests s).Steps q)
    (ended : ∀ p ∈ q.procs, ∃ answered, p = .done answered) :
    ∃ l, (w.serving requests s).Run l q ∧ PatchesKept w s.payload.values requests l q := by
  obtain ⟨l, tenures, run, serial⟩ := Workflow.serving_serial steps
  have chain := serial.chain ended fun _ _ _ ⟨_, _, served⟩ ↦ served.unlocked
  have served := serial.results ended
  refine ⟨l, run,
    { ascending := serial.inOrder.ascending
      once := serial.inOrder.distinct
      stored := values_of_chain chain served
      answered := fun i v job result ↦ ?_ }⟩
  obtain ⟨c, found, served_i⟩ := serial.following.post result
  obtain ⟨patch, lock, first, last, rfl, tenure, answer⟩ := served_i.of_values
  have mem := serial.complete i lock (by rw [tenure]; rfl)
  obtain ⟨earlier, later, split⟩ := List.append_of_mem mem
  rw [split] at chain served
  obtain ⟨first', last', before, tenure'⟩ := chain.cut
  obtain ⟨-, rfl, -⟩ := Tenure.past.inj (tenure.symm.trans tenure')
  refine ⟨patch, earlier, lock, later, found, split, answer.trans ?_⟩
  rw [values_of_chain before fun x mem ↦ served x (List.mem_append_left _ mem)]
  rfl

def twoItems : AppConfigSchema := { items := [{ name := "host" }, { name := "port" }] }

def twoItemsInstall : Workflow InstallState := .install {} twoItems fun _ ↦ []

/-- Two patches that are fine, and one that is not. -/
def threePatches : List Configuration :=
  [.values (Dict.ofList [("host", .string "a")]), .values (Dict.ofList [("port", .string "b")]),
    .values (Dict.ofList [("host", .bool true)])]

/-- The third patch is refused while the first client has the lock, and the second client takes the
lock before the first one is answered. -/
def threeServed : Pool (Site InstallState) (Answer InstallState × Option (Job InstallState)) :=
  (twoItemsInstall.serving threePatches (twoItemsInstall.start none .epoch)).after
    (List.replicate 3 0 ++ [2] ++ List.replicate 7 0 ++ List.replicate 6 1 ++ [0] ++
      List.replicate 5 1)

/-- The first two patches are kept. -/
theorem overlapping_patches_kept :
    (twoItemsInstall.serving threePatches (twoItemsInstall.start none .epoch)).Steps threeServed ∧
      (∀ p ∈ threeServed.procs, ∃ answered, p = .done answered) ∧
      threeServed.state.payload.values =
        Dict.ofList [("host", .string "a"), ("port", .string "b")] ∧
      ∃ l, (twoItemsInstall.serving threePatches (twoItemsInstall.start none .epoch)).Run l
          threeServed ∧
        PatchesKept twoItemsInstall .empty threePatches l threeServed := by
  have steps := (Pool.Steps.refl (twoItemsInstall.serving threePatches
    (twoItemsInstall.start none .epoch))).after (List.replicate 3 0 ++ [2] ++ List.replicate 7 0 ++
      List.replicate 6 1 ++ [0] ++ List.replicate 5 1)
  have ended (p : Proc _ _) (mem : p ∈ threeServed.procs) : ∃ answered, p = .done answered := by
    obtain ⟨a, b, c, procs⟩ : ∃ a b c, threeServed.procs = [.done a, .done b, .done c] :=
      ⟨_, _, _, rfl⟩
    simp only [procs, List.mem_cons, List.not_mem_nil, or_false] at mem
    rcases mem with rfl | rfl | rfl <;> exact ⟨_, rfl⟩
  exact ⟨steps, ended, rfl, no_patch_lost twoItemsInstall _ threePatches threeServed steps ended⟩

end Rollout
