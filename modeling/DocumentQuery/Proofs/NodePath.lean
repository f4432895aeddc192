import DocumentQuery.Expr.Basic
import Mathlib.Tactic

/-!
# Paths to nodes

An expression shares nodes, so that one node can be reached along several paths.
A path names, from the topmost node on, the place of the next node among those
right below.  The nodes of an expression are listed once for each path: the list
of paths has no duplicates, every path that leads somewhere is on it, and the
nodes are what the paths lead to.
-/

namespace DocumentQuery

namespace Expr

/-- The nodes right below a node: its operands, then its options. -/
def children (e : Expr) : List Expr := e.operands ++ e.options.map Prod.snd

/-- The node that a path leads to, if it leads to one. -/
def at? (e : Expr) (path : List Nat) : Option Expr :=
  path.foldlM (fun n place => n.children[place]?) e

mutual

/-- The paths to the nodes of an expression, in the order of the nodes. -/
def paths : Expr → List (List Nat)
  | ⟨_, _, operands, options⟩ =>
    [] :: (operandPaths 0 operands ++ optionPaths operands.length options)

def operandPaths (place : Nat) : List Expr → List (List Nat)
  | [] => []
  | e :: rest => (paths e).map (place :: ·) ++ operandPaths (place + 1) rest

def optionPaths (place : Nat) : List (String × Expr) → List (List Nat)
  | [] => []
  | (_, e) :: rest => (paths e).map (place :: ·) ++ optionPaths (place + 1) rest

end

/-! ## One node and those right below -/

theorem size_le_operandsSize {es : List Expr} {x : Expr} (hx : x ∈ es) :
    x.size ≤ operandsSize es := by
  induction es with
  | nil => cases hx
  | cons e rest ih =>
      rw [operandsSize]
      rcases List.mem_cons.1 hx with rfl | hx
      · exact Nat.le_add_right _ _
      · exact (ih hx).trans (Nat.le_add_left _ _)

theorem size_le_optionsSize {es : List (String × Expr)} {x : Expr}
    (hx : x ∈ es.map Prod.snd) : x.size ≤ optionsSize es := by
  induction es with
  | nil => cases hx
  | cons e rest ih =>
      rw [optionsSize]
      rcases List.mem_cons.1 hx with rfl | hx
      · exact Nat.le_add_right _ _
      · exact (ih hx).trans (Nat.le_add_left _ _)

theorem size_lt_of_mem_children {e x : Expr} (hx : x ∈ e.children) :
    x.size < e.size := by
  obtain ⟨i, kind, operands, options⟩ := e
  rw [size]
  rcases List.mem_append.1 hx with hx | hx
  · have hle : x.size ≤ operandsSize operands := size_le_operandsSize hx
    omega
  · have hle : x.size ≤ optionsSize options := size_le_optionsSize hx
    omega

/-- What passes on from the nodes right below a node to the node holds of every
expression. -/
@[elab_as_elim]
theorem children_induction {P : Expr → Prop} (e : Expr)
    (step : ∀ e, (∀ x ∈ e.children, P x) → P e) : P e :=
  step e fun x _ => children_induction x step
termination_by e.size
decreasing_by exact size_lt_of_mem_children ‹_›

theorem operandNodes_eq (es : List Expr) : operandNodes es = es.flatMap nodes := by
  induction es with
  | nil => rfl
  | cons e rest ih => rw [operandNodes, ih, List.flatMap_cons]

theorem optionNodes_eq (es : List (String × Expr)) :
    optionNodes es = (es.map Prod.snd).flatMap nodes := by
  induction es with
  | nil => rfl
  | cons e rest ih => rw [optionNodes, ih, List.map_cons, List.flatMap_cons]

theorem nodes_eq (e : Expr) : e.nodes = e :: e.children.flatMap nodes := by
  obtain ⟨i, kind, operands, options⟩ := e
  rw [nodes, operandNodes_eq, optionNodes_eq, children, List.flatMap_append]

/-- The nodes below a node of an expression are nodes of the expression. -/
theorem nodes_subset_nodes {e n : Expr} (hn : n ∈ e.nodes) : n.nodes ⊆ e.nodes := by
  induction e using children_induction with
  | step e ih =>
      rw [nodes_eq, List.mem_cons] at hn
      rcases hn with rfl | hn
      · exact List.Subset.refl _
      · obtain ⟨x, hx, hn⟩ := List.mem_flatMap.1 hn
        intro m hm
        rw [nodes_eq]
        exact List.mem_cons_of_mem _ (List.mem_flatMap.2 ⟨x, hx, ih x hx hn hm⟩)

/-- The paths that go on from one of some nodes, which have a place each. -/
def pathsThrough (numbered : List (Expr × Nat)) : List (List Nat) :=
  numbered.flatMap fun x => x.1.paths.map (x.2 :: ·)

theorem operandPaths_eq (place : Nat) (es : List Expr) :
    operandPaths place es = pathsThrough (es.zipIdx place) := by
  induction es generalizing place with
  | nil => rfl
  | cons e rest ih =>
      rw [operandPaths, ih, List.zipIdx_cons, pathsThrough, pathsThrough,
        List.flatMap_cons]

theorem optionPaths_eq (place : Nat) (es : List (String × Expr)) :
    optionPaths place es = pathsThrough ((es.map Prod.snd).zipIdx place) := by
  induction es generalizing place with
  | nil => rfl
  | cons e rest ih =>
      rw [optionPaths, ih, List.map_cons, List.zipIdx_cons, pathsThrough,
        pathsThrough, List.flatMap_cons]

theorem paths_eq (e : Expr) : e.paths = [] :: pathsThrough e.children.zipIdx := by
  obtain ⟨i, kind, operands, options⟩ := e
  rw [paths, operandPaths_eq, optionPaths_eq, children, List.zipIdx_append,
    pathsThrough, pathsThrough, pathsThrough, List.flatMap_append, Nat.zero_add]

theorem at?_cons (e : Expr) (place : Nat) (path : List Nat) :
    e.at? (place :: path) = e.children[place]?.bind (·.at? path) := by
  rw [at?, List.foldlM_cons]
  rfl

/-! ## All nodes -/

theorem mem_paths_iff {e : Expr} {path : List Nat} :
    path ∈ e.paths ↔ ∃ n, e.at? path = some n := by
  induction e using children_induction generalizing path with
  | step e ih =>
    rw [paths_eq]
    cases path with
    | nil => exact iff_of_true List.mem_cons_self ⟨e, rfl⟩
    | cons place path =>
        simp only [List.mem_cons, reduceCtorEq, false_or, at?_cons, pathsThrough,
          List.mem_flatMap, List.mem_map, List.cons.injEq, Prod.exists,
          List.mem_zipIdx_iff_getElem?, Option.bind_eq_some_iff]
        constructor
        · rintro ⟨x, place, hx, path, hpath, rfl, rfl⟩
          obtain ⟨n, hn⟩ := (ih x (List.mem_of_getElem? hx)).1 hpath
          exact ⟨n, x, hx, hn⟩
        · rintro ⟨n, x, hx, hn⟩
          exact ⟨x, place, hx, path,
            (ih x (List.mem_of_getElem? hx)).2 ⟨n, hn⟩, rfl, rfl⟩

theorem nodup_paths (e : Expr) : e.paths.Nodup := by
  induction e using children_induction with
  | step e ih =>
    rw [paths_eq, List.nodup_cons, pathsThrough, List.nodup_flatMap]
    refine ⟨by simp, fun x hx => ?_, ?_⟩
    · have hchild : x.1 ∈ e.children := List.fst_mem_of_mem_zipIdx hx
      exact (ih x.1 hchild).map fun _ _ heq => (List.cons.inj heq).2
    · have hplaces : (e.children.zipIdx.map Prod.snd).Nodup := by
        rw [List.zipIdx_map_snd]
        exact List.nodup_range'
      -- Paths through two nodes differ in their first place.
      refine (List.pairwise_map.1 hplaces).imp fun {x y} hne path hx hy => ?_
      obtain ⟨_, _, rfl⟩ := List.mem_map.1 hx
      obtain ⟨_, _, heq⟩ := List.mem_map.1 hy
      exact hne (List.cons.inj heq).1.symm

/-- The paths lead to the nodes, one after the other. -/
theorem map_at?_paths (e : Expr) : e.paths.map e.at? = e.nodes.map some := by
  induction e using children_induction with
  | step e ih =>
    have hthrough : ∀ x ∈ e.children.zipIdx,
        (x.1.paths.map (x.2 :: ·)).map e.at? = x.1.nodes.map some := by
      rintro ⟨x, place⟩ hx
      have hplace : e.children[place]? = some x :=
        List.mem_zipIdx_iff_getElem?.1 hx
      rw [← ih x (List.mem_of_getElem? hplace), List.map_map]
      refine List.map_congr_left fun path _ => ?_
      rw [Function.comp_apply, at?_cons, hplace, Option.bind_some]
    have hnodes : e.children.flatMap nodes =
        e.children.zipIdx.flatMap fun x => x.1.nodes := by
      conv_lhs => rw [← List.zipIdx_map_fst 0 e.children, List.flatMap_map]
    rw [paths_eq, nodes_eq, List.map_cons, List.map_cons, pathsThrough,
      List.map_flatMap, List.flatMap_congr hthrough, hnodes, List.map_flatMap]
    rfl

end Expr

end DocumentQuery
