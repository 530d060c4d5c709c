import Intcode.Explorer
import Intcode.Proofs.InputArrival
import Mathlib.Data.List.Induction
import Mathlib.Data.List.Shortlex

/-!
# Breadth-first search

`Explorer.breadthFirst` goes through levels of machines.  What it comes to can be said without them
(`breadthFirst_spec`).  A path of moves is open if it is not too long and the search goes on from
all shorter paths that lead up to it (`Explorer.IsOpen`).  The search visits the open paths, the
shorter ones first and those of one length in lexicographic order, until a fork is found or faults
(`Explorer.survey`).

A visitor is a function of the path and the fork.  One that remembers what it has been shown is
such a function, too, since it is shown every path only once.

The forks are made one move after another, each from the machine that the one before has left.
Since it does not matter in what pieces input arrives, they are the forks that all moves of a path
have at once, except that they only have the outputs of the last move (`isReplayed`).
-/

namespace Intcode

/-! ## Forks of forks -/

/-- A fork behind earlier outputs. -/
def Fork.behind (earlier : List Word) (fork : Fork) : Fork :=
  { fork with outputs := earlier ++ fork.outputs }

lemma Fork.behind_nil (fork : Fork) : fork.behind [] = fork := rfl

namespace Machine

/-- A fork is what a copy comes to with the inputs behind its queue. -/
lemma fork_eq (inputs : List Word) (m : Machine) :
    m.fork inputs = (m.queue inputs).conclude.map fun (outcome, m') =>
      ⟨outcome.outputs, outcome.stop, m'⟩ := by
  unfold fork
  rw [conclude_queue_eq_run]
  rcases m.run inputs with ⟨fault | outcome, m'⟩
  · rfl
  · rfl

/-- A fork on all of some inputs is made from the fork on the first of them. -/
lemma fork_append (inputs more : List Word) (m : Machine) :
    m.fork (inputs ++ more) = m.fork inputs >>= fun fork =>
      (fork.machine.fork more).map (Fork.behind fork.outputs) := by
  simp only [fork_eq]
  rw [← queue_queue, conclude_queue]
  rcases (m.queue inputs).conclude with fault | ⟨outcome, m'⟩
  · rfl
  · change ((m'.queue more).conclude.map (after outcome.outputs)).map _ =
      ((m'.queue more).conclude.map _).map _
    rcases (m'.queue more).conclude with fault | ⟨outcome', m''⟩
    · rfl
    · rfl

end Machine

namespace Explorer

/-! ## Paths -/

section Paths

variable (e : Explorer) (moves : List (List Word)) (maxDepth : Nat)
  (visit : List Nat → Fork → Visit) (path : List Nat)

/-- The inputs of all moves of a path. -/
def inputsAlong : List Word := path.flatMap fun k => moves.getD k []

/-- What becomes of the checkpoint when the moves of a path are made one after another.  The outputs
are those of the last move. -/
def forkAlong : Except Fault Fork :=
  path.foldlM (fun fork k => fork.machine.fork (moves.getD k [])) ⟨[], .awaitingInput, e.checkpoint⟩

/-- The search goes on from the end of a path: the visitor says so, and the fork awaits input. -/
def goesOn : Bool :=
  match e.forkAlong moves path with
  | .ok fork => visit path fork = .proceed ∧ fork.stop = .awaitingInput
  | .error _ => false

/-- The search comes to the end of a path, unless it has ended before. -/
structure IsOpen : Prop where
  /-- There is a move. -/
  ne_nil : path ≠ []
  /-- There are not too many moves. -/
  length_le : path.length ≤ maxDepth
  /-- The moves exist. -/
  lt_length : ∀ k ∈ path, k < moves.length
  /-- The search goes on from all shorter paths on the way. -/
  goesOn : ∀ earlier, earlier <+: path → earlier ≠ [] → earlier ≠ path →
    e.goesOn moves visit earlier

/-- The fork at the end of a path is the one that all its moves have at once, except that it only
has the outputs of the last move. -/
structure IsReplayed : Prop where
  /-- If the one faults, so does the other. -/
  fault : ∀ fault, e.forkAlong moves path = .error fault →
    e.tryInputs (inputsAlong moves path) = .error fault
  /-- All moves but the last one have the earlier outputs. -/
  fork : ∀ fork, e.forkAlong moves path = .ok fork →
    ∃ earlier, e.tryInputs (inputsAlong moves path) = .ok (fork.behind earlier) ∧
      (path.dropLast = [] → earlier = []) ∧
        (path.dropLast ≠ [] →
          (e.tryInputs (inputsAlong moves path.dropLast)).map Fork.outputs = .ok earlier)

end Paths

variable {e : Explorer} {moves : List (List Word)} {maxDepth : Nat}
  {visit : List Nat → Fork → Visit} {path : List Nat} {sweep : Sweep}

lemma forkAlong_concat (e : Explorer) (moves : List (List Word)) (path : List Nat) (k : Nat) :
    e.forkAlong moves (path ++ [k]) =
      e.forkAlong moves path >>= fun fork => fork.machine.fork (moves.getD k []) := by
  unfold forkAlong
  simp only [List.foldlM_append, List.foldlM_cons, List.foldlM_nil, bind_pure]

lemma inputsAlong_concat (moves : List (List Word)) (path : List Nat) (k : Nat) :
    inputsAlong moves (path ++ [k]) = inputsAlong moves path ++ moves.getD k [] := by
  unfold inputsAlong
  rw [List.flatMap_append, List.flatMap_singleton]

/-- The moves of a path come to the same one after another and all at once. -/
lemma isReplayed (e : Explorer) (moves : List (List Word)) (h : path ≠ []) :
    e.IsReplayed moves path := by
  induction path using List.reverseRecOn with
  | nil => exact absurd rfl h
  | append_singleton trunk k ih =>
    by_cases htrunk : trunk = []
    · -- The first move is made from the checkpoint itself.
      have hsingle : e.tryInputs (inputsAlong moves (trunk ++ [k])) =
          e.forkAlong moves (trunk ++ [k]) := by
        rw [htrunk, forkAlong_concat, inputsAlong_concat]
        rfl
      constructor
      · intro fault hfault
        rw [hsingle, hfault]
      · intro fork hfork
        refine ⟨[], ?_, fun _ => rfl, fun hne => ?_⟩
        · rw [hsingle, hfork, fork.behind_nil]
        · rw [List.dropLast_concat] at hne
          exact absurd htrunk hne
    · obtain ⟨hfaults, hforks⟩ := ih htrunk
      have hsplit : e.tryInputs (inputsAlong moves (trunk ++ [k])) =
          e.tryInputs (inputsAlong moves trunk) >>= fun whole =>
            (whole.machine.fork (moves.getD k [])).map (Fork.behind whole.outputs) := by
        rw [inputsAlong_concat]
        exact Machine.fork_append _ _ e.checkpoint
      have hlast := e.forkAlong_concat moves trunk k
      rcases hbefore : e.forkAlong moves trunk with fault | before
      · rw [hfaults fault hbefore] at hsplit
        rw [hbefore] at hlast
        constructor
        · intro fault' hfault
          rw [hlast] at hfault
          cases hfault
          exact hsplit
        · intro fork hfork
          rw [hlast] at hfork
          cases hfork
      · obtain ⟨earlier, hwhole, _, _⟩ := hforks before hbefore
        rw [hwhole] at hsplit
        rw [hbefore] at hlast
        change _ = before.machine.fork (moves.getD k []) at hlast
        change _ = (before.machine.fork (moves.getD k [])).map _ at hsplit
        rw [← hlast] at hsplit
        constructor
        · intro fault hfault
          rw [hsplit, hfault]
          rfl
        · intro fork hfork
          refine ⟨earlier ++ before.outputs, ?_, fun hnil => ?_, fun _ => ?_⟩
          · rw [hsplit, hfork]
            rfl
          · rw [List.dropLast_concat] at hnil
            exact absurd hnil htrunk
          · rw [List.dropLast_concat, hwhole]
            rfl

/-! ## The search without levels -/

/-- A finding behind earlier visits. -/
def Finding.behind (earlier : List Visited) (finding : Finding) : Finding :=
  { finding with visited := earlier ++ finding.visited }

lemma Finding.behind_behind (earlier later : List Visited) (finding : Finding) :
    (finding.behind later).behind earlier = finding.behind (earlier ++ later) := by
  unfold behind
  rw [List.append_assoc]

/-- Visits the ends of some paths, one after another, until a fork is found or faults. -/
def survey (e : Explorer) (moves : List (List Word)) (visit : List Nat → Fork → Visit) :
    List (List Nat) → Finding
  | [] => ⟨[], .ok none⟩
  | path :: paths =>
    match e.forkAlong moves path with
    | .error fault => ⟨[], .error fault⟩
    | .ok fork =>
      if visit path fork = .found then ⟨[⟨path, fork⟩], .ok (some ⟨path, fork⟩)⟩
      else (survey e moves visit paths).behind [⟨path, fork⟩]

/-- What a survey finds is at the end of one of its paths, and none has been found before. -/
lemma exists_append_of_survey {paths : List (List Nat)} {here : Visited}
    (h : (e.survey moves visit paths).result = .ok (some here)) :
    ∃ before after, paths = before ++ here.path :: after ∧
      (e.forkAlong moves here.path = .ok here.fork ∧ visit here.path here.fork = .found) ∧
        ∀ path ∈ before, ∀ fork, e.forkAlong moves path = .ok fork → visit path fork ≠ .found := by
  induction paths with
  | nil => cases h
  | cons path paths ih =>
    rcases hfork : e.forkAlong moves path with fault | fork
    · simp only [survey, hfork] at h
      cases h
    · by_cases hfound : visit path fork = .found
      · simp only [survey, hfork, if_pos hfound] at h
        cases h
        exact ⟨[], paths, rfl, ⟨hfork, hfound⟩, fun _ hmem => nomatch hmem⟩
      · simp only [survey, hfork, if_neg hfound] at h
        obtain ⟨before, after, rfl, hhere, hbefore⟩ := ih h
        refine ⟨path :: before, after, rfl, hhere, ?_⟩
        intro path' hmem fork' hfork'
        rcases List.mem_cons.1 hmem with rfl | hmem
        · rw [hfork] at hfork'
          cases hfork'
          exact hfound
        · exact hbefore path' hmem fork' hfork'

/-- The paths with one move more, those of an earlier path first. -/
def extensions (count : Nat) (paths : List (List Nat)) : List (List Nat) :=
  paths.flatMap fun path => (List.range count).map fun k => path ++ [k]

/-- The paths that a search comes to from the ends of some paths, with a number of moves at most. -/
def opened (e : Explorer) (moves : List (List Word)) (visit : List Nat → Fork → Visit) :
    Nat → List (List Nat) → List (List Nat)
  | 0, _ => []
  | depth + 1, paths =>
    extensions moves.length paths ++
      opened e moves visit depth ((extensions moves.length paths).filter (e.goesOn moves visit))

lemma opened_nil (depth : Nat) : e.opened moves visit depth [] = [] := by
  induction depth with
  | zero => rfl
  | succ depth ih => exact ih

/-! ### Sweeps -/

/-- The paths of the branches of a sweep, in order. -/
def Sweep.paths (sweep : Sweep) : List (List Nat) := sweep.branches.reverse.map Branch.path

/-- The machine of a branch is the one to which its path leads. -/
def Branch.Stands (e : Explorer) (moves : List (List Word)) (branch : Branch) : Prop :=
  ∃ fork, e.forkAlong moves branch.path = .ok fork ∧ fork.machine = branch.machine

/-- What becomes of a sweep when the ends of some paths are visited: the search ends there as a
survey does, or the visits and the branches of the sweep have been extended. -/
inductive Surveys (e : Explorer) (moves : List (List Word)) (visit : List Nat → Fork → Visit)
    (sweep : Sweep) (paths : List (List Nat)) : Except Finding Sweep → Prop
  /-- The search ends, whatever paths are left. -/
  | ended {finding : Finding}
    (hfinding : ∀ rest,
      (e.survey moves visit (paths ++ rest)).behind sweep.visited.reverse = finding) :
    Surveys e moves visit sweep paths (.error finding)
  /-- The search goes on with the paths that are left. -/
  | passed {sweep' : Sweep}
    (hvisited : ∀ rest, (e.survey moves visit (paths ++ rest)).behind sweep.visited.reverse =
      (e.survey moves visit rest).behind sweep'.visited.reverse)
    (hpaths : sweep'.paths = sweep.paths ++ paths.filter (e.goesOn moves visit))
    (hstands : (∀ branch ∈ sweep.branches, branch.Stands e moves) →
      ∀ branch ∈ sweep'.branches, branch.Stands e moves) :
    Surveys e moves visit sweep paths (.ok sweep')

namespace Surveys

lemma nil : Surveys e moves visit sweep [] (.ok sweep) := by
  refine .passed (fun rest => rfl) ?_ fun h => h
  rw [List.filter_nil, List.append_nil]

/-- Some paths are visited after others. -/
lemma bind {r : Except Finding Sweep} {step : Sweep → Except Finding Sweep}
    {paths more : List (List Nat)} (h : Surveys e moves visit sweep paths r)
    (hstep : ∀ sweep', Surveys e moves visit sweep' more (step sweep')) :
    Surveys e moves visit sweep (paths ++ more) (r >>= step) := by
  cases h with
  | ended hfinding =>
    refine .ended fun rest => ?_
    rw [List.append_assoc]
    exact hfinding (more ++ rest)
  | @passed sweep' hvisited hpaths hstands =>
    have hmore := hstep sweep'
    change Surveys e moves visit sweep (paths ++ more) (step sweep')
    generalize step sweep' = r at hmore ⊢
    cases hmore with
    | ended hfinding =>
      refine .ended fun rest => ?_
      rw [List.append_assoc, hvisited, hfinding]
    | passed hvisited' hpaths' hstands' =>
      refine .passed (fun rest => ?_) ?_ fun h => hstands' (hstands h)
      · rw [List.append_assoc, hvisited, hvisited']
      · rw [hpaths', hpaths, List.filter_append, List.append_assoc]

/-- What is made of steps that each visit some paths visits the paths of all steps. -/
lemma foldlM {α : Type} {step : Sweep → α → Except Finding Sweep} {paths : α → List (List Nat)}
    {xs : List α}
    (h : ∀ x ∈ xs, ∀ sweep, Surveys e moves visit sweep (paths x) (step sweep x)) (sweep : Sweep) :
    Surveys e moves visit sweep (xs.flatMap paths) (xs.foldlM step sweep) := by
  induction xs generalizing sweep with
  | nil => exact .nil
  | cons x xs ih =>
    rw [List.foldlM_cons, List.flatMap_cons]
    refine (h x (List.mem_cons_self ..) sweep).bind fun sweep' => ?_
    exact ih (fun y hy => h y (List.mem_cons_of_mem _ hy)) sweep'

end Surveys

/-- A move from a branch visits the path that has this move behind those of the branch. -/
lemma surveys_visitMove {branch : Branch} (h : branch.Stands e moves) (k : Nat) (sweep : Sweep) :
    Surveys e moves visit sweep [branch.path ++ [k]]
      (visitMove visit branch sweep (moves.getD k [], k)) := by
  obtain ⟨before, hbefore, hmachine⟩ := h
  have hlast : e.forkAlong moves (branch.path ++ [k]) = branch.machine.fork (moves.getD k []) := by
    rw [forkAlong_concat, hbefore, ← hmachine]
    rfl
  unfold visitMove
  rcases hfork : branch.machine.fork (moves.getD k []) with fault | fork
  · refine .ended fun rest => ?_
    rw [hfork] at hlast
    simp only [List.cons_append, survey, hlast, Finding.behind, List.append_nil]
  · rw [hfork] at hlast
    have hsurvey (rest : List (List Nat)) (hfound : visit (branch.path ++ [k]) fork ≠ .found) :
        (e.survey moves visit ([branch.path ++ [k]] ++ rest)).behind sweep.visited.reverse =
          (e.survey moves visit rest).behind
            ((⟨branch.path ++ [k], fork⟩ : Visited) :: sweep.visited).reverse := by
      simp only [List.cons_append, List.nil_append, survey, hlast, if_neg hfound,
        Finding.behind_behind, List.reverse_cons]
    -- The path is left out of the next level.
    have hleft (hstays : ¬ e.goesOn moves visit (branch.path ++ [k])) :
        sweep.paths = sweep.paths ++ [branch.path ++ [k]].filter (e.goesOn moves visit) := by
      rw [List.filter_cons_of_neg hstays, List.filter_nil, List.append_nil]
    simp only
    cases hvisit : visit (branch.path ++ [k]) fork with
    | found =>
      refine .ended fun rest => ?_
      simp only [List.cons_append, survey, hlast, if_pos hvisit, Finding.behind, List.reverse_cons]
    | prune =>
      have hstays : ¬ e.goesOn moves visit (branch.path ++ [k]) := by simp [goesOn, hlast, hvisit]
      exact .passed (fun rest => hsurvey rest (by simp [hvisit])) (hleft hstays) fun h => h
    | proceed =>
      cases hstop : fork.stop with
      | halted =>
        have hstays : ¬ e.goesOn moves visit (branch.path ++ [k]) := by simp [goesOn, hlast, hstop]
        exact .passed (fun rest => hsurvey rest (by simp [hvisit])) (hleft hstays) fun h => h
      | awaitingInput =>
        have hgoes : e.goesOn moves visit (branch.path ++ [k]) := by
          simp [goesOn, hlast, hvisit, hstop]
        refine .passed (fun rest => hsurvey rest (by simp [hvisit])) ?_ ?_
        · rw [List.filter_cons_of_pos hgoes, List.filter_nil]
          simp [Sweep.paths]
        · intro hstands other hmem
          rcases List.mem_cons.1 hmem with rfl | hmem
          · exact ⟨fork, hlast, rfl⟩
          · exact hstands other hmem

/-- The moves from a branch visit its extensions. -/
lemma surveys_visitBranch {branch : Branch} (h : branch.Stands e moves) (sweep : Sweep) :
    Surveys e moves visit sweep (extensions moves.length [branch.path])
      (visitBranch visit moves sweep branch) := by
  have hpaths : extensions moves.length [branch.path] =
      moves.zipIdx.flatMap fun move => [branch.path ++ [move.2]] := by
    have hindices : moves.zipIdx.map Prod.snd = List.range moves.length := by
      rw [List.zipIdx_map_snd, List.range_eq_range']
    unfold extensions
    rw [List.flatMap_singleton, ← hindices, List.map_map, ← List.map_eq_flatMap]
    rfl
  rw [hpaths]
  refine Surveys.foldlM ?_ sweep
  rintro ⟨move, k⟩ hmem sweep
  have hmove : move = moves.getD k [] := by
    rw [List.getD_eq_getElem?_getD, List.mem_zipIdx_iff_getElem?.1 hmem]
    rfl
  rw [hmove]
  exact surveys_visitMove h k sweep

/-- Searching level by level is a survey of the paths that are opened. -/
lemma levels_eq (depth : Nat) (sweep : Sweep)
    (hstands : ∀ branch ∈ sweep.branches, branch.Stands e moves) :
    levels visit moves depth sweep =
      (e.survey moves visit (e.opened moves visit depth sweep.paths)).behind
        sweep.visited.reverse := by
  have hnone : (⟨sweep.visited.reverse, .ok none⟩ : Finding) =
      (e.survey moves visit []).behind sweep.visited.reverse := by
    simp only [survey, Finding.behind, List.append_nil]
  induction depth generalizing sweep with
  | zero => exact hnone
  | succ depth ih =>
    unfold levels
    by_cases hempty : sweep.branches.isEmpty
    · have hpaths : sweep.paths = [] := by
        unfold Sweep.paths
        rw [List.isEmpty_iff.1 hempty]
        rfl
      rw [if_pos hempty, hpaths, opened_nil, hnone]
    · have hlevel : Surveys e moves visit ⟨sweep.visited, []⟩
          (sweep.branches.reverse.flatMap fun branch => extensions moves.length [branch.path])
          (sweep.branches.reverse.foldlM (visitBranch visit moves) ⟨sweep.visited, []⟩) :=
        .foldlM (fun branch hmem => surveys_visitBranch (hstands branch (List.mem_reverse.1 hmem))) _
      have hpaths : sweep.branches.reverse.flatMap
          (fun branch => extensions moves.length [branch.path]) =
            extensions moves.length sweep.paths := by
        unfold extensions Sweep.paths
        rw [List.flatMap_map]
        simp only [List.flatMap_singleton]
      rw [hpaths] at hlevel
      rw [if_neg hempty]
      unfold opened
      generalize sweep.branches.reverse.foldlM (visitBranch visit moves) ⟨sweep.visited, []⟩ = r
        at hlevel
      cases hlevel with
      | ended hfinding => exact (hfinding _).symm
      | @passed sweep' hvisited hnext hstands' =>
        rw [hvisited]
        change levels visit moves depth sweep' = _
        have hnext' : sweep'.paths =
            (extensions moves.length sweep.paths).filter (e.goesOn moves visit) := hnext
        rw [← hnext']
        refine ih sweep' (hstands' fun _ hmem => nomatch hmem) ?_
        simp only [survey, Finding.behind, List.append_nil]

/-! ### Open paths -/

lemma mem_extensions {count : Nat} {paths : List (List Nat)} :
    path ∈ extensions count paths ↔ ∃ start ∈ paths, ∃ k, k < count ∧ path = start ++ [k] := by
  unfold extensions
  simp only [List.mem_flatMap, List.mem_map, List.mem_range, eq_comm]

/-- Further moves lead from the end of a path to a place to which the search comes. -/
structure Opens (e : Explorer) (moves : List (List Word)) (visit : List Nat → Fork → Visit)
    (depth : Nat) (start rest : List Nat) : Prop where
  /-- There is a move. -/
  ne_nil : rest ≠ []
  /-- There are not too many moves. -/
  length_le : rest.length ≤ depth
  /-- The moves exist. -/
  lt_length : ∀ k ∈ rest, k < moves.length
  /-- The search goes on from all places on the way. -/
  goesOn : ∀ earlier, earlier <+: rest → earlier ≠ [] → earlier ≠ rest →
    e.goesOn moves visit (start ++ earlier)

/-- The first of the moves exists, and if it is not the only one, the search goes on behind it. -/
lemma opens_cons {depth k : Nat} {start rest : List Nat} :
    Opens e moves visit (depth + 1) start (k :: rest) ↔
      k < moves.length ∧
        (rest = [] ∨ e.goesOn moves visit (start ++ [k]) ∧
          Opens e moves visit depth (start ++ [k]) rest) := by
  constructor
  · rintro ⟨_, hlength, hlt, hgoes⟩
    refine ⟨hlt k (List.mem_cons_self ..), or_iff_not_imp_left.2 fun hrest => ⟨?_, ?_⟩⟩
    · have hproper : [k] ≠ k :: rest := fun hsame => hrest (List.cons.inj hsame).2.symm
      exact hgoes [k] ((List.prefix_cons_inj k).2 List.nil_prefix) (List.cons_ne_nil _ _) hproper
    · refine ⟨hrest, Nat.le_of_succ_le_succ hlength, fun k' h => hlt k' (List.mem_cons_of_mem _ h),
        fun earlier hearlier _ hproper => ?_⟩
      have hproper' : k :: earlier ≠ k :: rest := fun hsame => hproper (List.cons.inj hsame).2
      rw [List.append_assoc]
      exact hgoes (k :: earlier) ((List.prefix_cons_inj k).2 hearlier) (List.cons_ne_nil _ _)
        hproper'
  · rintro ⟨hk, hrest⟩
    refine ⟨List.cons_ne_nil _ _, ?_, fun k' hmem => ?_, fun earlier hearlier hne hproper => ?_⟩
    · rcases hrest with rfl | ⟨_, hopens⟩
      · exact Nat.succ_le_succ (Nat.zero_le depth)
      · exact Nat.succ_le_succ hopens.length_le
    · rcases List.mem_cons.1 hmem with rfl | hmem
      · exact hk
      · rcases hrest with rfl | ⟨_, hopens⟩
        · cases hmem
        · exact hopens.lt_length k' hmem
    · obtain ⟨shorter, rfl, hshorter⟩ := (List.prefix_cons_iff.1 hearlier).resolve_left hne
      have hproper' : shorter ≠ rest := fun hsame => hproper (by rw [hsame])
      rcases hrest with rfl | ⟨hfirst, hopens⟩
      · exact absurd (List.prefix_nil.1 hshorter) hproper'
      · by_cases hshort : shorter = []
        · rwa [hshort]
        · have hlater := hopens.goesOn shorter hshorter hshort hproper'
          rwa [List.append_assoc] at hlater

/-- The paths that are opened have further moves behind one of the given paths. -/
lemma mem_opened {depth : Nat} {paths : List (List Nat)} :
    path ∈ e.opened moves visit depth paths ↔
      ∃ start ∈ paths, ∃ rest, path = start ++ rest ∧ Opens e moves visit depth start rest := by
  -- The first move leads to the next level; the others are opened from there.
  induction depth generalizing paths with
  | zero =>
    refine iff_of_false (fun hmem => nomatch hmem) ?_
    rintro ⟨start, _, rest, _, hopens⟩
    exact hopens.ne_nil (List.length_eq_zero_iff.1 (Nat.le_zero.1 hopens.length_le))
  | succ depth ih =>
    unfold opened
    rw [List.mem_append, ih, mem_extensions]
    constructor
    · rintro (⟨start, hstart, k, hk, rfl⟩ | ⟨trunk, htrunk, rest, rfl, hopens⟩)
      · exact ⟨start, hstart, [k], rfl, opens_cons.2 ⟨hk, Or.inl rfl⟩⟩
      · obtain ⟨hmem, hgoes⟩ := List.mem_filter.1 htrunk
        obtain ⟨start, hstart, k, hk, rfl⟩ := mem_extensions.1 hmem
        refine ⟨start, hstart, k :: rest, ?_, opens_cons.2 ⟨hk, Or.inr ⟨hgoes, hopens⟩⟩⟩
        rw [List.append_assoc]
        rfl
    · rintro ⟨start, hstart, rest, rfl, hopens⟩
      obtain ⟨k, rest, rfl⟩ := List.exists_cons_of_ne_nil hopens.ne_nil
      obtain ⟨hk, rfl | ⟨hgoes, hopens'⟩⟩ := opens_cons.1 hopens
      · exact Or.inl ⟨start, hstart, k, hk, rfl⟩
      · have hmem := mem_extensions.2 ⟨start, hstart, k, hk, rfl⟩
        refine Or.inr ⟨start ++ [k], List.mem_filter.2 ⟨hmem, hgoes⟩, rest, ?_, hopens'⟩
        rw [List.append_assoc]
        rfl

/-- The paths that are opened from the beginning are the open ones. -/
lemma mem_opened_iff_isOpen :
    path ∈ e.opened moves visit maxDepth [[]] ↔ e.IsOpen moves maxDepth visit path := by
  rw [mem_opened]
  constructor
  · rintro ⟨start, hstart, rest, rfl, hopens⟩
    rw [List.mem_singleton.1 hstart] at hopens ⊢
    exact ⟨hopens.ne_nil, hopens.length_le, hopens.lt_length, hopens.goesOn⟩
  · intro hopen
    exact ⟨[], List.mem_singleton.2 rfl, path, rfl, hopen.ne_nil, hopen.length_le, hopen.lt_length,
      hopen.goesOn⟩

/-! ### The order of paths -/

/-- The shorter path comes first, and of two paths of one length the smaller one in lexicographic
order. -/
abbrev Precedes (path path' : List Nat) : Prop := List.Shortlex (· < ·) path path'

/-- Further moves do not matter if the moves before them decide. -/
lemma lex_append {path path' : List Nat} (hlength : path.length = path'.length)
    (h : List.Lex (· < ·) path path') (more more' : List Nat) :
    List.Lex (· < ·) (path ++ more) (path' ++ more') := by
  induction h with
  | nil => cases hlength
  | cons hrest ih => exact .cons (ih (Nat.succ.inj hlength))
  | rel hlt => exact .rel hlt

/-- Extensions keep the order of paths of one length. -/
lemma pairwise_extensions (count : Nat) {length : Nat} {paths : List (List Nat)}
    (hlength : ∀ path ∈ paths, path.length = length) (h : paths.Pairwise Precedes) :
    (extensions count paths).Pairwise Precedes := by
  unfold extensions
  rw [List.pairwise_flatMap]
  constructor
  · intro path _
    rw [List.pairwise_map]
    refine List.pairwise_lt_range.imp fun hlt => ?_
    exact .of_lex (by simp) (List.Lex.append_left _ (.rel hlt) path)
  · refine h.imp_of_mem fun {path path'} hmem hmem' hprecedes => ?_
    have hsame : path.length = path'.length := by rw [hlength path hmem, hlength path' hmem']
    have hlex := (List.shortlex_iff_lex hsame).1 hprecedes
    intro p hp p' hp'
    obtain ⟨k, _, rfl⟩ := List.mem_map.1 hp
    obtain ⟨k', _, rfl⟩ := List.mem_map.1 hp'
    exact .of_lex (by simp [hsame]) (lex_append hsame hlex [k] [k'])

/-- Paths are opened in order. -/
lemma pairwise_opened (depth length : Nat) {paths : List (List Nat)}
    (hlength : ∀ path ∈ paths, path.length = length) (h : paths.Pairwise Precedes) :
    (e.opened moves visit depth paths).Pairwise Precedes := by
  induction depth generalizing paths length with
  | zero => exact .nil
  | succ depth ih =>
    have hlonger : ∀ path ∈ extensions moves.length paths, path.length = length + 1 := by
      intro path hmem
      obtain ⟨start, hstart, k, _, rfl⟩ := mem_extensions.1 hmem
      rw [List.length_append, hlength start hstart, List.length_singleton]
    have hnext := pairwise_extensions moves.length hlength h
    unfold opened
    refine List.pairwise_append.2 ⟨hnext, ?_, ?_⟩
    · exact ih _ (fun path hmem => hlonger path (List.mem_filter.1 hmem).1) (hnext.filter _)
    · intro path hmem path' hmem'
      obtain ⟨trunk, htrunk, rest, rfl, hopens⟩ := mem_opened.1 hmem'
      refine .of_length_lt ?_
      rw [hlonger path hmem, List.length_append, hlonger trunk (List.mem_filter.1 htrunk).1]
      exact Nat.lt_add_of_pos_right (List.length_pos_iff.2 hopens.ne_nil)

/-- The paths that are opened from the beginning are opened in order. -/
lemma pairwise_opened_root : (e.opened moves visit maxDepth [[]]).Pairwise Precedes := by
  refine pairwise_opened maxDepth 0 (fun path hmem => ?_) (List.pairwise_singleton _ _)
  rw [List.mem_singleton.1 hmem]
  rfl

lemma length_le_of_precedes {path path' : List Nat} (h : Precedes path path') :
    path.length ≤ path'.length := by
  rcases List.shortlex_def.1 h with hlt | ⟨hsame, _⟩
  · exact Nat.le_of_lt hlt
  · exact Nat.le_of_eq hsame

/-- What a survey of paths in order finds is at the end of one of the shortest paths where it could
be found. -/
lemma length_le_of_survey {paths : List (List Nat)} {here : Visited}
    (hordered : paths.Pairwise Precedes)
    (h : (e.survey moves visit paths).result = .ok (some here)) {fork : Fork} (hmem : path ∈ paths)
    (hfork : e.forkAlong moves path = .ok fork) (hfound : visit path fork = .found) :
    here.path.length ≤ path.length := by
  obtain ⟨before, after, rfl, _, hbefore⟩ := exists_append_of_survey h
  rcases List.mem_append.1 hmem with hearlier | hlater
  · exact absurd hfound (hbefore path hearlier fork hfork)
  · rcases List.mem_cons.1 hlater with rfl | hlater
    · exact Nat.le_refl _
    · have hprecedes := List.rel_of_pairwise_cons (List.pairwise_append.1 hordered).2.1 hlater
      exact length_le_of_precedes hprecedes

/-! ## What a search comes to -/

/-- A search from a machine that has not halted is a survey of what it opens. -/
lemma breadthFirst_eq (h : ¬ e.checkpoint.isHalted) :
    e.breadthFirst moves maxDepth visit =
      e.survey moves visit (e.opened moves visit maxDepth [[]]) := by
  unfold breadthFirst
  rw [if_neg h]
  refine levels_eq maxDepth ⟨[], [⟨[], e.checkpoint⟩]⟩ fun branch hmem => ?_
  rw [List.mem_singleton.1 hmem]
  exact ⟨_, rfl, rfl⟩

/-- From a machine that has halted nothing is searched.  From any other one the search surveys the
open paths in order; so if it finds a fork, none at the end of a shorter open path could have been
found.  The forks are those that all moves of a path have at once, with the outputs of the last
move. -/
theorem breadthFirst_spec (e : Explorer) (moves : List (List Word)) (maxDepth : Nat)
    (visit : List Nat → Fork → Visit) :
    (e.checkpoint.isHalted → e.breadthFirst moves maxDepth visit = ⟨[], .ok none⟩) ∧
      (¬ e.checkpoint.isHalted →
        (∃ paths, paths.Pairwise Precedes ∧
          (∀ path, path ∈ paths ↔ e.IsOpen moves maxDepth visit path) ∧
            e.breadthFirst moves maxDepth visit = e.survey moves visit paths) ∧
          ∀ here, (e.breadthFirst moves maxDepth visit).result = .ok (some here) →
            (e.IsOpen moves maxDepth visit here.path ∧
              e.forkAlong moves here.path = .ok here.fork ∧
                visit here.path here.fork = .found) ∧
              ∀ path fork, e.IsOpen moves maxDepth visit path →
                e.forkAlong moves path = .ok fork → visit path fork = .found →
                  here.path.length ≤ path.length) ∧
        ∀ path, e.IsOpen moves maxDepth visit path → e.IsReplayed moves path := by
  refine ⟨fun hhalted => ?_, fun hrunning => ⟨?_, fun here hresult => ?_⟩, fun path hopen => ?_⟩
  · unfold breadthFirst
    rw [if_pos hhalted]
  · exact ⟨_, pairwise_opened_root, fun path => mem_opened_iff_isOpen, breadthFirst_eq hrunning⟩
  · rw [breadthFirst_eq hrunning] at hresult
    obtain ⟨before, after, hpaths, hhere, _⟩ := exists_append_of_survey hresult
    have hmem : here.path ∈ e.opened moves visit maxDepth [[]] := by
      rw [hpaths]
      exact List.mem_append_right _ (List.mem_cons_self ..)
    refine ⟨⟨mem_opened_iff_isOpen.1 hmem, hhere⟩, fun path fork hopen hfork hfound => ?_⟩
    exact length_le_of_survey pairwise_opened_root hresult (mem_opened_iff_isOpen.2 hopen) hfork
      hfound
  · exact isReplayed e moves hopen.ne_nil

/-- A machine that hands its inputs back, one after another. -/
def parroting : Machine :=
  Machine.boot ⟨#[Word.ofCount 3, Word.ofCount 7, Word.ofCount 4, Word.ofCount 7,
    Word.ofCount 1105, Word.ofCount 1, 0]⟩ {}

/-- An explorer at the first input of `parroting`. -/
def perched : Explorer := ⟨parroting.step.machine, [], .awaitingInput⟩

/-- Three moves: one value, another one, and both. -/
def beaks : List (List Word) := [[0], [1], [0, 1]]

/-- Looks for the first move and the second one behind it, and does not go on from the third one. -/
def listening (path : List Nat) (_ : Fork) : Visit :=
  if path = [0, 1] then .found else if path = [2] then .prune else .proceed

/-- A search from `perched` finds the two moves at the fifth path that it visits. -/
theorem breadthFirst_spec_perched :
    (ofMachine parroting = .ok perched ∧ ¬ perched.checkpoint.isHalted) ∧
      (perched.breadthFirst beaks 2 listening).visited.map Visited.path =
        [[0], [1], [2], [0, 0], [0, 1]] ∧
        ∃ fork, (perched.breadthFirst beaks 2 listening).result = .ok (some ⟨[0, 1], fork⟩) ∧
          fork.outputs = [1] ∧ perched.IsOpen beaks 2 listening [0, 1] ∧
            perched.IsReplayed beaks [0, 1] := by
  have hnew : ofMachine parroting = .ok perched := by decide +kernel
  have hrunning : ¬ perched.checkpoint.isHalted := by decide +kernel
  have hvisited : (perched.breadthFirst beaks 2 listening).visited.map Visited.path =
      [[0], [1], [2], [0, 0], [0, 1]] := by decide +kernel
  have hshown : (perched.breadthFirst beaks 2 listening).result.map
      (Option.map fun here => (here.path, here.fork.outputs)) = .ok (some ([0, 1], [1])) := by
    decide +kernel
  obtain ⟨_, hsearch, hreplayed⟩ := breadthFirst_spec perched beaks 2 listening
  rcases hresult : (perched.breadthFirst beaks 2 listening).result with fault | _ | ⟨path, fork⟩
  · rw [hresult] at hshown
    cases hshown
  · rw [hresult] at hshown
    cases hshown
  · rw [hresult] at hshown
    obtain ⟨rfl, houtputs⟩ := Prod.mk.inj (Option.some.inj (Except.ok.inj hshown))
    obtain ⟨⟨hopen, _⟩, _⟩ := (hsearch hrunning).2 _ hresult
    exact ⟨⟨hnew, hrunning⟩, hvisited, fork, rfl, houtputs, hopen, hreplayed _ hopen⟩

end Explorer

end Intcode
