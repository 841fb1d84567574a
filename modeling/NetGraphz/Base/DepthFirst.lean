import Mathlib.Data.List.Nodup
import Mathlib.Logic.Relation

/-! Depth-first search as the list of its visits, each with the ancestors it was
reached through. The list is a tree: every visit but the first hangs below an
earlier one, and its ancestors are that one and the ancestors of that one. -/
namespace NetGraphz.DepthFirst

/-- A node, and its ancestors in the tree, nearest first. -/
structure Visit (α : Type u) where
  node : α
  ancestors : List α

/-- The search below some ancestors, with the nodes seen so far and those still
to be looked at: a node that was seen is passed over, another is entered, and all
below it is searched before its siblings. -/
inductive Explores (next : α → List α) :
    List α → List α → List α → List (Visit α) → Prop where
  | done : Explores next seen ancestors [] []
  | skip (known : node ∈ seen) (rest : Explores next seen ancestors todo visits) :
      Explores next seen ancestors (node :: todo) visits
  | enter {node : α} {seen ancestors todo : List α} {inside visits : List (Visit α)}
      (fresh : node ∉ seen)
      (below : Explores next (seen ++ [node]) (node :: ancestors) (next node) inside)
      (rest : Explores next (seen ++ node :: inside.map Visit.node) ancestors todo visits) :
      Explores next seen ancestors (node :: todo) (⟨node, ancestors⟩ :: (inside ++ visits))

variable {next : α → List α} {seen ancestors todo : List α} {visits : List (Visit α)}

/-- No node is visited twice, and none that was seen before. -/
theorem Explores.distinct (explores : Explores next seen ancestors todo visits)
    (distinct : seen.Nodup) : (seen ++ visits.map Visit.node).Nodup := by
  induction explores with
  | done => simpa using distinct
  | skip known rest ih => exact ih distinct
  | @enter node seen ancestors todo inside visits fresh below rest ihBelow ihRest =>
    have entered : (seen ++ [node]).Nodup := by
      refine List.nodup_append.mpr ⟨distinct, List.nodup_singleton node, ?_⟩
      intro known seen other isNode same
      rw [List.mem_singleton.mp isNode] at same
      exact fresh (same ▸ seen)
    have inner := ihBelow entered
    rw [List.append_assoc, List.singleton_append] at inner
    have outer := ihRest inner
    rw [List.map_cons, List.map_append]
    simpa using outer

/-- All that was to be looked at has been seen. -/
theorem Explores.covers (explores : Explores next seen ancestors todo visits) :
    ∀ node ∈ todo, node ∈ seen ++ visits.map Visit.node := by
  induction explores with
  | done => simp
  | skip known rest ih =>
    intro node listed
    rcases List.mem_cons.mp listed with rfl | later
    · exact List.mem_append_left _ known
    · exact ih node later
  | enter fresh below rest ihBelow ihRest =>
    intro node listed
    rcases List.mem_cons.mp listed with rfl | later
    · simp
    · have found := ihRest node later
      simp only [List.mem_append, List.mem_cons, List.map_cons, List.map_append] at found ⊢
      tauto

/-- Whatever a visited node leads to has been seen. -/
theorem Explores.closed (explores : Explores next seen ancestors todo visits) :
    ∀ visit ∈ visits, ∀ node ∈ next visit.node, node ∈ seen ++ visits.map Visit.node := by
  induction explores with
  | done => simp
  | skip known rest ih => exact ih
  | enter fresh below rest ihBelow ihRest =>
    intro visit visited node leads
    rcases List.mem_cons.mp visited with rfl | later
    · have found := below.covers node leads
      simp only [List.mem_append, List.mem_cons, List.map_cons, List.map_append] at found ⊢
      tauto
    · rcases List.mem_append.mp later with inside | outside
      · have found := ihBelow visit inside node leads
        simp only [List.mem_append, List.mem_cons, List.map_cons, List.map_append] at found ⊢
        tauto
      · have found := ihRest visit outside node leads
        simp only [List.mem_append, List.mem_cons, List.map_cons, List.map_append] at found ⊢
        tauto

/-- One node leads to another. -/
def Leads (next : α → List α) (node other : α) : Prop := other ∈ next node

/-- Every visited node is reached from one that was to be looked at. -/
theorem Explores.sound (explores : Explores next seen ancestors todo visits) :
    ∀ visit ∈ visits, ∃ root ∈ todo, Relation.ReflTransGen (Leads next) root visit.node := by
  induction explores with
  | done => simp
  | skip known rest ih =>
    intro visit visited
    obtain ⟨root, listed, reaches⟩ := ih visit visited
    exact ⟨root, List.mem_cons_of_mem _ listed, reaches⟩
  | @enter node seen ancestors todo inside visits fresh below rest ihBelow ihRest =>
    intro visit visited
    rcases List.mem_cons.mp visited with rfl | later
    · exact ⟨node, List.mem_cons_self, .refl⟩
    · rcases List.mem_append.mp later with inside | outside
      · obtain ⟨root, listed, reaches⟩ := ihBelow visit inside
        exact ⟨node, List.mem_cons_self, .head listed reaches⟩
      · obtain ⟨root, listed, reaches⟩ := ihRest visit outside
        exact ⟨root, List.mem_cons_of_mem _ listed, reaches⟩

/-- A visit hangs where the search began, or below another visit that leads to
it and has the rest of its ancestors. -/
theorem Explores.lineage (explores : Explores next seen ancestors todo visits) :
    ∀ visit ∈ visits, (visit.ancestors = ancestors ∧ visit.node ∈ todo) ∨
      ∃ parent ∈ visits, visit.ancestors = parent.node :: parent.ancestors ∧
        Leads next parent.node visit.node := by
  induction explores with
  | done => simp
  | skip known rest ih =>
    intro visit visited
    rcases ih visit visited with ⟨same, listed⟩ | below
    · exact Or.inl ⟨same, List.mem_cons_of_mem _ listed⟩
    · exact Or.inr below
  | @enter node seen ancestors todo inside visits fresh below rest ihBelow ihRest =>
    intro visit visited
    rcases List.mem_cons.mp visited with rfl | later
    · exact Or.inl ⟨rfl, List.mem_cons_self⟩
    · rcases List.mem_append.mp later with within | outside
      · right
        rcases ihBelow visit within with ⟨same, leads⟩ | ⟨parent, above, same, leads⟩
        · exact ⟨⟨node, ancestors⟩, List.mem_cons_self, same, leads⟩
        · exact ⟨parent, by simp [above], same, leads⟩
      · rcases ihRest visit outside with ⟨same, listed⟩ | ⟨parent, above, same, leads⟩
        · exact Or.inl ⟨same, List.mem_cons_of_mem _ listed⟩
        · exact Or.inr ⟨parent, by simp [above], same, leads⟩

/-- A search has one list of visits. -/
theorem Explores.unique (explores : Explores next seen ancestors todo visits) :
    ∀ {visits'}, Explores next seen ancestors todo visits' → visits = visits' := by
  induction explores with
  | done =>
    intro visits' other
    cases other
    rfl
  | skip known rest ih =>
    intro visits' other
    cases other with
    | skip _ rest' => exact ih rest'
    | enter fresh _ _ => exact absurd known fresh
  | enter fresh below rest ihBelow ihRest =>
    intro visits' other
    cases other with
    | skip known _ => exact absurd known fresh
    | enter _ below' rest' =>
      cases ihBelow below'
      cases ihRest rest'
      rfl

/-- A search from one node, with nothing seen: its visits are a tree. -/
def Tree (next : α → List α) (start : α) (visits : List (Visit α)) : Prop :=
  Explores next [] [] [start] visits

variable {start : α}

theorem Tree.distinct (tree : Tree next start visits) : (visits.map Visit.node).Nodup := by
  simpa using Explores.distinct tree List.nodup_nil

/-- A node has one path in the tree. -/
theorem Tree.ancestors_unique (tree : Tree next start visits) {visit other : Visit α}
    (visited : visit ∈ visits) (visited' : other ∈ visits) (same : visit.node = other.node) :
    visit = other :=
  List.inj_on_of_nodup_map tree.distinct visited visited' same

/-- The search visits exactly what can be reached. -/
theorem Tree.visited_iff (tree : Tree next start visits) (node : α) :
    node ∈ visits.map Visit.node ↔ Relation.ReflTransGen (Leads next) start node := by
  constructor
  · intro visited
    obtain ⟨visit, member, rfl⟩ := List.mem_map.mp visited
    obtain ⟨root, listed, reaches⟩ := Explores.sound tree visit member
    rw [List.mem_singleton.mp listed] at reaches
    exact reaches
  · intro reaches
    induction reaches with
    | refl =>
      have found := Explores.covers tree start List.mem_cons_self
      simpa using found
    | tail _ leads ih =>
      obtain ⟨visit, member, rfl⟩ := List.mem_map.mp ih
      have found := Explores.closed tree visit member _ leads
      simpa using found

/-- The visit of the start has no ancestors; every other one hangs below another. -/
theorem Tree.lineage (tree : Tree next start visits) {visit : Visit α} (visited : visit ∈ visits) :
    visit = ⟨start, []⟩ ∨ ∃ parent ∈ visits,
      visit.ancestors = parent.node :: parent.ancestors ∧ Leads next parent.node visit.node := by
  rcases Explores.lineage tree visit visited with ⟨none, listed⟩ | below
  · left
    obtain ⟨node, ancestors⟩ := visit
    cases List.mem_singleton.mp listed
    cases none
    rfl
  · exact Or.inr below

/-- An ancestor of a visit was visited, with the ancestors behind it. -/
theorem Tree.ancestor (tree : Tree next start visits) {nearer farther : List α} {above : α} :
    ∀ {visit : Visit α}, visit ∈ visits → visit.ancestors = nearer ++ above :: farther →
      ⟨above, farther⟩ ∈ visits := by
  induction nearer with
  | nil =>
    intro visit visited split
    rcases tree.lineage visited with rfl | ⟨parent, member, same, _⟩
    · cases split
    · rw [same] at split
      cases split
      exact member
  | cons nearest nearer ih =>
    intro visit visited split
    rcases tree.lineage visited with rfl | ⟨parent, member, same, _⟩
    · cases split
    · rw [same] at split
      have behind : parent.ancestors = nearer ++ above :: farther := (List.cons.inj split).2
      exact ih member behind

/-- Some ancestor of each node, by any choice, is never an ancestor of itself:
up the choices the paths get shorter. -/
theorem Tree.acyclic (tree : Tree next start visits) (chosen : List α → Option α)
    (choice : ∀ ancestors above, chosen ancestors = some above → above ∈ ancestors) (node : α) :
    ¬ Relation.TransGen (fun above below =>
      ∃ visit ∈ visits, visit.node = below ∧ chosen visit.ancestors = some above) node node := by
  have shorter {above below : α} (step : Relation.TransGen (fun above below =>
      ∃ visit ∈ visits, visit.node = below ∧ chosen visit.ancestors = some above) above below) :
      ∃ visit ∈ visits, ∃ other ∈ visits, visit.node = above ∧ other.node = below ∧
        visit.ancestors.length < other.ancestors.length := by
    induction step with
    | single chose =>
      obtain ⟨visit, visited, rfl, isChosen⟩ := chose
      obtain ⟨nearer, farther, split⟩ := List.append_of_mem (choice _ _ isChosen)
      refine ⟨_, tree.ancestor visited split, visit, visited, rfl, rfl, ?_⟩
      rw [split, List.length_append, List.length_cons]
      simp only
      omega
    | tail _ chose ih =>
      obtain ⟨top, topVisited, middle, middleVisited, isTop, isMiddle, less⟩ := ih
      obtain ⟨visit, visited, rfl, isChosen⟩ := chose
      obtain ⟨nearer, farther, split⟩ := List.append_of_mem (choice _ _ isChosen)
      have same := tree.ancestors_unique middleVisited (tree.ancestor visited split) isMiddle
      refine ⟨top, topVisited, visit, visited, isTop, rfl, ?_⟩
      rw [same] at less
      rw [split, List.length_append, List.length_cons]
      simp only at less
      omega
  intro cycle
  obtain ⟨visit, visited, other, visited', isNode, isNode', less⟩ := shorter cycle
  have same := tree.ancestors_unique visited visited' (isNode.trans isNode'.symm)
  rw [same] at less
  exact Nat.lt_irrefl _ less

end NetGraphz.DepthFirst
