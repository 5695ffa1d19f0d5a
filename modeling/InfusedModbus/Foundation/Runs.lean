import InfusedModbus.Foundation.Tiling
import Mathlib.Data.List.Chain
import Mathlib.Data.List.Perm.Basic

/-! Blocks of cells that follow one another without a gap. A list of disjoint blocks is
cut into such runs; a run is closed when the next block does not follow it at once or
would make it longer than the limit. No gap-free group within the limit holds the first
blocks of two runs, so there are no fewer groups than runs, whatever the groups are. -/

namespace InfusedModbus.Foundation

section Runs

variable {ρ : Type} (start size : ρ → ℕ) (limit : ℕ)

/-- Each block begins where the one before it ends, and the first begins at `a`. -/
def Run : ℕ → List ρ → Prop
  | _, [] => True
  | a, r :: rs => start r = a ∧ Run (a + size r) rs

/-- The number of cells of the blocks. -/
def cellCount (rs : List ρ) : ℕ := (rs.map size).sum

def Before (r s : ρ) : Prop := start r + size r ≤ start s

/-- In some order the blocks are a run. -/
def Gapless (rs : List ρ) : Prop := ∃ a sorted, sorted.Perm rs ∧ Run start size a sorted

/-- The first block of the next run could not have been added to this one. -/
def ClosedBy (run next : List ρ) : Prop :=
  ∃ first last : ρ, next.head? = some first ∧ run.getLast? = some last ∧
    (start last + size last < start first ∨ limit < cellCount size run + size first)

variable {start size limit}

@[simp] theorem cellCount_nil : cellCount size ([] : List ρ) = 0 := rfl

@[simp] theorem cellCount_cons (r : ρ) (rs : List ρ) : cellCount size (r :: rs) = size r + cellCount size rs := rfl

theorem cellCount_append (rs rs' : List ρ) :
    cellCount size (rs ++ rs') = cellCount size rs + cellCount size rs' := by
  simp [cellCount]

theorem cellCount_perm {rs rs' : List ρ} (h : rs.Perm rs') : cellCount size rs = cellCount size rs' :=
  (h.map size).sum_nat

theorem run_append {a : ℕ} {rs rs' : List ρ} :
    Run start size a (rs ++ rs') ↔ Run start size a rs ∧ Run start size (a + cellCount size rs) rs' := by
  induction rs generalizing a with
  | nil => simp [Run]
  | cons r rs ih => simp only [List.cons_append, Run, ih, cellCount_cons, Nat.add_assoc, and_assoc]

theorem disjoint_extent {r s : ρ} (h : Before start size r s ∨ Before start size s r) :
    Disjoint (extent start size r) (extent start size s) := by
  refine Set.disjoint_left.mpr ?_
  rintro x ⟨hr, hr'⟩ ⟨hs, hs'⟩
  unfold Before at h
  omega

/-- The blocks of a run lie between its ends. -/
theorem Run.within {a : ℕ} {rs : List ρ} (h : Run start size a rs) {r : ρ} (hr : r ∈ rs) :
    a ≤ start r ∧ start r + size r ≤ a + cellCount size rs := by
  induction rs generalizing a with
  | nil => exact (List.not_mem_nil hr).elim
  | cons s rs ih =>
    obtain ⟨rfl, hrest⟩ := h
    rw [cellCount_cons]
    rcases List.mem_cons.mp hr with rfl | hr
    · omega
    · have := ih hrest hr
      omega

/-- Every cell between the ends of a run is in a block of it. -/
theorem Run.covers {a : ℕ} {rs : List ρ} (h : Run start size a rs) {x : ℕ} (hx : a ≤ x)
    (hx' : x < a + cellCount size rs) : ∃ r ∈ rs, start r ≤ x ∧ x < start r + size r := by
  induction rs generalizing a with
  | nil =>
    rw [cellCount_nil] at hx'
    omega
  | cons s rs ih =>
    obtain ⟨rfl, hrest⟩ := h
    rw [cellCount_cons] at hx'
    rcases Nat.lt_or_ge x (start s + size s) with hlt | hge
    · exact ⟨s, List.mem_cons_self, hx, hlt⟩
    · obtain ⟨r, hr, hcell⟩ := ih hrest hge (by omega)
      exact ⟨r, List.mem_cons_of_mem _ hr, hcell⟩

/-- The last block of a run ends where the run does. -/
theorem Run.end_eq {a : ℕ} {rs : List ρ} (h : Run start size a rs) {last : ρ} (hlast : rs.getLast? = some last) :
    start last + size last = a + cellCount size rs := by
  obtain ⟨init, rfl⟩ := List.getLast?_eq_some_iff.mp hlast
  obtain ⟨-, hstart, -⟩ := run_append.mp h
  rw [cellCount_append, cellCount_cons, cellCount_nil, hstart]
  omega

theorem Run.start_eq {a : ℕ} {rs : List ρ} (h : Run start size a rs) {first : ρ} (hfirst : rs.head? = some first) :
    start first = a := by
  obtain ⟨rest, rfl⟩ := List.head?_eq_some_iff.mp hfirst
  exact h.1

/-- Blocks in order from `a` on that end by `b` are no more than `b - a` cells. -/
theorem cellCount_le {a b : ℕ} {rs : List ρ} (hbefore : rs.Pairwise (Before start size)) (ha : ∀ r ∈ rs, a ≤ start r)
    (hb : ∀ r ∈ rs, start r + size r ≤ b) (hab : a ≤ b) : a + cellCount size rs ≤ b := by
  induction rs generalizing a with
  | nil => simpa using hab
  | cons r rs ih =>
    obtain ⟨hfirst, hrest⟩ := List.pairwise_cons.mp hbefore
    have hstart := ha r List.mem_cons_self
    have hend := hb r List.mem_cons_self
    have htail := ih hrest hfirst (fun s hs => hb s (List.mem_cons_of_mem _ hs)) hend
    rw [cellCount_cons]
    omega

/-- If they are as many, there is no gap between them. -/
theorem run_of_cellCount_eq {a b : ℕ} {rs : List ρ} (hbefore : rs.Pairwise (Before start size))
    (ha : ∀ r ∈ rs, a ≤ start r) (hb : ∀ r ∈ rs, start r + size r ≤ b) (hfull : a + cellCount size rs = b) :
    Run start size a rs := by
  induction rs generalizing a with
  | nil => trivial
  | cons r rs ih =>
    obtain ⟨hfirst, hrest⟩ := List.pairwise_cons.mp hbefore
    have hstart := ha r List.mem_cons_self
    have hend := hb r List.mem_cons_self
    have hb' : ∀ s ∈ rs, start s + size s ≤ b := fun s hs => hb s (List.mem_cons_of_mem _ hs)
    have htail := cellCount_le hrest hfirst hb' hend
    rw [cellCount_cons] at hfull
    obtain rfl : a = start r := by omega
    exact ⟨rfl, ih hrest hfirst hb' (by omega)⟩

/-! ### The fewest runs -/

/-- Whether a run is closed depends on the first block of the next one only. -/
theorem ClosedBy.append {run next : List ρ} (h : ClosedBy start size limit run next) (rs : List ρ) :
    ClosedBy start size limit run (next ++ rs) := by
  obtain ⟨first, last, hfirst, hlast, hclosed⟩ := h
  obtain ⟨rest, rfl⟩ := List.head?_eq_some_iff.mp hfirst
  exact ⟨first, last, rfl, hlast, hclosed⟩

theorem isChain_extended {runs : List (List ρ)} {run : List ρ}
    (h : (runs ++ [run]).IsChain (ClosedBy start size limit)) (rs : List ρ) :
    (runs ++ [run ++ rs]).IsChain (ClosedBy start size limit) := by
  obtain ⟨hruns, -, hlast⟩ := List.isChain_append.mp h
  refine List.isChain_append.mpr ⟨hruns, List.isChain_singleton _, ?_⟩
  intro closed hclosed extended hextended
  obtain rfl := Option.some.inj hextended
  exact (hlast closed hclosed run rfl).append rs

theorem isChain_concat {runs : List (List ρ)} {run next : List ρ}
    (h : (runs ++ [run]).IsChain (ClosedBy start size limit)) (hclosed : ClosedBy start size limit run next) :
    (runs ++ [run] ++ [next]).IsChain (ClosedBy start size limit) := by
  refine List.isChain_append.mpr ⟨h, List.isChain_singleton _, ?_⟩
  intro last hlast first hfirst
  rw [List.getLast?_concat] at hlast
  obtain rfl := Option.some.inj hlast
  obtain rfl := Option.some.inj hfirst
  exact hclosed

/-- Where each of `xs` meets one of `ys` and no two of them meet the same, there are no
fewer `ys`. -/
theorem length_le_of_meets {α β : Type} {meets : α → β → Prop} {xs : List α} {ys : List β}
    (hmeets : ∀ x ∈ xs, ∃ y ∈ ys, meets x y)
    (hapart : xs.Pairwise fun x x' => ∀ y ∈ ys, meets x y → ¬meets x' y) : xs.length ≤ ys.length := by
  induction xs generalizing ys with
  | nil => exact Nat.zero_le _
  | cons x xs ih =>
    obtain ⟨hx, hxs⟩ := List.pairwise_cons.mp hapart
    obtain ⟨y, hy, hmeet⟩ := hmeets x List.mem_cons_self
    -- without the one that `x` meets, every other still meets one
    obtain ⟨before, after, rfl⟩ := List.append_of_mem hy
    have hsub : ∀ z ∈ before ++ after, z ∈ before ++ y :: after := by
      intro z hz
      rw [List.mem_append] at hz
      rw [List.mem_append, List.mem_cons]
      tauto
    have hle : xs.length ≤ (before ++ after).length := by
      apply ih
      · intro x' hx'
        obtain ⟨z, hz, hmeet'⟩ := hmeets x' (List.mem_cons_of_mem _ hx')
        refine ⟨z, ?_, hmeet'⟩
        have hne : z ≠ y := by
          rintro rfl
          exact hx x' hx' z hy hmeet hmeet'
        rw [List.mem_append, List.mem_cons] at hz
        rw [List.mem_append]
        tauto
      · exact hxs.imp fun h z hz => h z (hsub z hz)
    simp only [List.length_append, List.length_cons] at hle ⊢
    omega

/-- A gap-free group with the first block of a run and a block after the run has either
a block in the gap behind the run, or more cells than the limit. -/
theorem not_mem_of_closedBy {before run next after : List ρ} {a : ℕ}
    (hbefore : (before ++ (run ++ (next ++ after))).Pairwise (Before start size)) (hrun : Run start size a run)
    (hclosed : ClosedBy start size limit run next) {group : List ρ} (hgap : Gapless start size group)
    (hlimit : cellCount size group ≤ limit) (hgroup : ∀ r ∈ group, r ∈ before ++ (run ++ (next ++ after)))
    {first other : ρ} (hfirst : run.head? = some first) (hother : other ∈ next ++ after) (hin : first ∈ group) :
    other ∉ group := by
  intro hin'
  obtain ⟨b, sorted, hperm, hsorted⟩ := hgap
  obtain ⟨head, last, hhead, hlast, hgapped | hfull⟩ := hclosed
  all_goals
    obtain ⟨rest, rfl⟩ := List.head?_eq_some_iff.mp hhead
    obtain ⟨-, hrest, hpre⟩ := List.pairwise_append.mp hbefore
    obtain ⟨-, hpost, hcross⟩ := List.pairwise_append.mp hrest
    have hafter : other = head ∨ Before start size head other := by
      rw [List.cons_append] at hother hpost
      rcases List.mem_cons.mp hother with rfl | hmem
      · exact Or.inl rfl
      · exact Or.inr ((List.pairwise_cons.mp hpost).1 other hmem)
    have hend : start head + size head ≤ start other + size other := by
      rcases hafter with rfl | hlt
      · exact le_rfl
      · exact (show start head + size head ≤ start other from hlt).trans (Nat.le_add_right _ _)
    have hlo := hsorted.within (hperm.mem_iff.mpr hin)
    have hhi := hsorted.within (hperm.mem_iff.mpr hin')
    have hstart := hrun.start_eq hfirst
    have hclose := hrun.end_eq hlast
  · -- the cell behind the run is in the group, but no block has it
    have hpos : start head ≤ start other := by
      rcases hafter with rfl | hlt
      · exact le_rfl
      · exact (Nat.le_add_right _ _).trans (show start head + size head ≤ start other from hlt)
    obtain ⟨r, hr, hle, hlt⟩ := hsorted.covers (show b ≤ start last + size last by omega) (by omega)
    rcases List.mem_append.mp (hgroup r (hperm.mem_iff.mp hr)) with hmem | hmem
    · have hrfirst : Before start size r first :=
        hpre r hmem first (List.mem_append_left _ (List.mem_of_mem_head? hfirst))
      unfold Before at hrfirst
      omega
    rcases List.mem_append.mp hmem with hmem | hmem
    · have := hrun.within hmem
      omega
    · have hge : start head ≤ start r := by
        rw [List.cons_append] at hmem hpost
        rcases List.mem_cons.mp hmem with rfl | hmem
        · exact le_rfl
        · have hlt' : Before start size head r := (List.pairwise_cons.mp hpost).1 r hmem
          unfold Before at hlt'
          omega
      omega
  · -- the group spans the run and the block after it
    have hrunhead : Before start size last head :=
      hcross last (List.mem_of_getLast? hlast) head (List.mem_append_left _ List.mem_cons_self)
    have hcount : cellCount size sorted = cellCount size group := cellCount_perm hperm
    unfold Before at hrunhead
    omega

/-- The first block of a run is in the group. -/
def Opens (run group : List ρ) : Prop := ∃ first, run.head? = some first ∧ first ∈ group

theorem pairwise_not_opens {before : List ρ} {runs groups : List (List ρ)}
    (hruns : ∀ run ∈ runs, run ≠ [] ∧ ∃ a, Run start size a run)
    (hbefore : (before ++ runs.flatten).Pairwise (Before start size))
    (hclosed : runs.IsChain (ClosedBy start size limit))
    (hgroups : ∀ group ∈ groups, Gapless start size group ∧ cellCount size group ≤ limit)
    (hsub : ∀ group ∈ groups, ∀ r ∈ group, r ∈ before ++ runs.flatten) :
    runs.Pairwise fun run run' => ∀ group ∈ groups, Opens run group → ¬Opens run' group := by
  induction runs generalizing before with
  | nil => exact List.Pairwise.nil
  | cons run runs ih =>
    rw [List.flatten_cons] at hbefore hsub
    obtain ⟨-, a, hrun⟩ := hruns run List.mem_cons_self
    refine List.pairwise_cons.mpr ⟨?_, ?_⟩
    · rintro run' hrun' group hgroup ⟨first, hfirst, hin⟩ ⟨other, hother, hin'⟩
      obtain ⟨hgap, hlimit⟩ := hgroups group hgroup
      cases runs with
      | nil => exact List.not_mem_nil hrun'
      | cons next runs =>
        have hnext : ClosedBy start size limit run next := (List.isChain_cons_cons.mp hclosed).1
        have hlater : other ∈ next ++ runs.flatten := by
          rw [← List.flatten_cons]
          exact List.mem_flatten.mpr ⟨run', hrun', List.mem_of_mem_head? hother⟩
        exact not_mem_of_closedBy hbefore hrun hnext hgap hlimit (hsub group hgroup) hfirst hlater hin hin'
    · apply @ih (before ++ run)
      · exact fun other hother => hruns other (List.mem_cons_of_mem _ hother)
      · rwa [List.append_assoc]
      · exact hclosed.tail
      · rwa [List.append_assoc]

/-- Whatever the gap-free groups within the limit that hold the same blocks, they are no
fewer than the closed runs. -/
theorem length_le_of_closedBy {runs groups : List (List ρ)}
    (hruns : ∀ run ∈ runs, run ≠ [] ∧ ∃ a, Run start size a run)
    (hbefore : runs.flatten.Pairwise (Before start size)) (hclosed : runs.IsChain (ClosedBy start size limit))
    (hperm : groups.flatten.Perm runs.flatten)
    (hgroups : ∀ group ∈ groups, Gapless start size group ∧ cellCount size group ≤ limit) :
    runs.length ≤ groups.length := by
  have hapart : runs.Pairwise fun run run' => ∀ group ∈ groups, Opens run group → ¬Opens run' group := by
    apply @pairwise_not_opens _ _ _ _ [] _ _ hruns hbefore hclosed hgroups
    intro group hgroup r hr
    exact hperm.mem_iff.mp (List.mem_flatten.mpr ⟨group, hgroup, hr⟩)
  refine length_le_of_meets ?_ hapart
  intro run hrun
  obtain ⟨first, rest, rfl⟩ := List.exists_cons_of_ne_nil (hruns run hrun).1
  have hmem : first ∈ groups.flatten := hperm.mem_iff.mpr (List.mem_flatten.mpr ⟨_, hrun, List.mem_cons_self⟩)
  obtain ⟨group, hgroup, hin⟩ := List.mem_flatten.mp hmem
  exact ⟨group, hgroup, first, rfl, hin⟩

end Runs

end InfusedModbus.Foundation
