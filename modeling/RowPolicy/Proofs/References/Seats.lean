import RowPolicy.Proofs.Joins.Answers

/-!
# The relations of a block and their names

A name can be given to a nested join too, and then the names in it can be used in it only. So a
`Seat` keeps, of all that is around a relation, the joins and the named nested joins. The seats
whose relation is a table are the tables that the block is restricted for, with the joins that
decide where their predicates go: `RowBlock.leaves_eq`.
-/

namespace RowPolicy.Sql

/-! ## Seats -/

/-- The name by which the columns of a relation are called, with its quote. -/
def Relation.exposed? : Relation → Option Ident
  | .table name _ _ _ naming _ => (naming.map (·.name)).or name.getLast?
  | .derived _ _ naming => naming.map (·.name)
  | .nested _ naming => naming.map (·.name)
  | .transformed _ _ _ naming => naming.map (·.name)
  | .other _ _ naming _ => naming.map (·.name)

/-- What is around a relation: a join, by which it is brought in, or a nested join with a name. -/
inductive Layer where
  | join (x : Around)
  | named (name : Ident)

namespace Layer

/-- The join that is around. -/
def join? : Layer → Option Around
  | join x => some x
  | named _ => none

/-- The name of the nested join that is around. -/
def name? : Layer → Option Ident
  | join _ => none
  | named name => some name

/-- Whether a predicate goes no further out. -/
def stops : Layer → Bool
  | join x => x.stops
  | named _ => false

end Layer

/-- A relation of a block, with what is around it, the innermost first. -/
structure Seat where
  relation : Relation
  layers : List Layer

namespace Seat

/-- The name of the relation. -/
def name? (s : Seat) : Option Ident :=
  s.relation.exposed?

/-- The joins around the relation. -/
def joins (s : Seat) : List Around :=
  s.layers.filterMap Layer.join?

/-- The nested joins around the relation, by their names. -/
def nests (s : Seat) : List Ident :=
  s.layers.filterMap Layer.name?

/-- What is around the place of a predicate for the relation: the join it stops at comes first. -/
def beyond (s : Seat) : List Layer :=
  s.layers.dropWhile (!·.stops)

/-- The nested joins around the place of a predicate for the relation, by their names. -/
def place (s : Seat) : List Ident :=
  s.beyond.filterMap Layer.name?

/-- The place of a predicate is that of its home. -/
theorem home_eq (s : Seat) : homeIn s.joins = homeIn (s.beyond.filterMap Layer.join?) := by
  obtain ⟨relation, layers⟩ := s
  simp only [joins, beyond, homeIn]
  congr 1
  induction layers with
  | nil => rfl
  | cons y layers ih =>
    cases y with
    | named name => simpa [Layer.stops, Layer.join?] using ih
    | join x =>
      cases hx : x.stops with
      | true => simp [Layer.stops, Layer.join?, hx]
      | false => simpa [Layer.stops, Layer.join?, hx] using ih

end Seat

mutual

/-- The seats of a tree of joins behind `n` relations, in order. -/
def JoinTree.seats (n : Nat) (layers : List Layer) : JoinTree → List Seat
  | ⟨relation, joins⟩ =>
    relation.seats n layers ++ joinsSeats (n + relation.size) layers joins

/-- The seats of joins. -/
def joinsSeats (n : Nat) (layers : List Layer) : List Join → List Seat
  | [] => []
  | ⟨_, _, kind, relation, _, on, _⟩ :: js =>
    relation.seats n (.join ⟨n, kind, on⟩ :: layers) ++
      joinsSeats (n + relation.size) layers js

/-- The seats of a relation: itself, and those in it. -/
def Relation.seats (n : Nat) (layers : List Layer) : Relation → List Seat
  | .nested tree naming =>
    ⟨.nested tree naming, layers⟩ ::
      tree.seats n (naming.toList.map (fun a => Layer.named a.name) ++ layers)
  | r => [⟨r, layers⟩]

end

/-- The seats of the trees of a `FROM`. -/
def treesSeats (n : Nat) : List JoinTree → List Seat
  | [] => []
  | t :: ts => t.seats n [] ++ treesSeats (n + t.size) ts

/-- The relations of a block, in textual order. -/
def RowBlock.seats (b : RowBlock) : List Seat :=
  treesSeats 0 b.trees

theorem joinsSeats_cons (n : Nat) (layers : List Layer) (j : Join) (js : List Join) :
    joinsSeats n layers (j :: js) =
      j.relation.seats n (.join ⟨n, j.kind, j.on⟩ :: layers) ++
        joinsSeats (n + j.relation.size) layers js := by
  cases j
  rw [joinsSeats]

theorem Relation.seats_leaf {r : Relation} (h : r.isLeaf) (n : Nat) (layers : List Layer) :
    r.seats n layers = [⟨r, layers⟩] := by
  cases r with
  | nested => simp [Relation.isLeaf] at h
  | _ => rw [Relation.seats]; exact fun _ _ h => by cases h

/-! ## Tables -/

section Tables

variable (s : Scope) (qualify : Bool)

/-- The table of a seat, with the joins around it, if it is one that is asked for. -/
def Seat.leaf? (x : Seat) : Option Leaf :=
  (x.relation.target? s qualify).map fun t => ⟨t, x.joins⟩

/-- The predicate for the table of a seat goes where the seat says. -/
theorem Seat.home_of_leaf? {x : Seat} {l : Leaf} (h : x.leaf? s qualify = some l) :
    l.home = homeIn (x.beyond.filterMap Layer.join?) := by
  obtain ⟨t, -, rfl⟩ := Option.map_eq_some_iff.mp h
  exact x.home_eq

theorem leavesOf_steps_eq :
    (∀ t : JoinTree, ∀ n layers,
      leavesOf (t.steps s qualify n (layers.filterMap Layer.join?)) =
        (t.seats n layers).filterMap (Seat.leaf? s qualify)) ∧
    (∀ js, ∀ n layers,
      leavesOf (joinsSteps s qualify n (layers.filterMap Layer.join?) js) =
        (joinsSeats n layers js).filterMap (Seat.leaf? s qualify)) ∧
    ∀ r : Relation, ∀ n layers,
      leavesOf (r.steps s qualify n (layers.filterMap Layer.join?)) =
        (r.seats n layers).filterMap (Seat.leaf? s qualify) := by
  refine JoinTree.induction ?tree ?nil ?cons ?nested ?leaf
  case tree =>
    intro relation joins ihr ihjs n layers
    rw [JoinTree.steps, JoinTree.seats, leavesOf_append, List.filterMap_append, ihr, ihjs]
  case nil => exact fun n layers => rfl
  case cons =>
    intro j js ihr ihjs n layers
    have hclosing : leavesOf (j.closing n) = [] := by
      rw [Join.closing]
      split <;> rfl
    have hr := ihr n (.join ⟨n, j.kind, j.on⟩ :: layers)
    rw [joinsSteps_cons, joinsSeats_cons, Join.steps, leavesOf_append, leavesOf_append, hclosing,
      List.append_nil, List.filterMap_append, ihjs, ← hr]
    rfl
  case nested =>
    intro t naming ih n layers
    have hself : Seat.leaf? s qualify ⟨.nested t naming, layers⟩ = none := rfl
    rw [Relation.steps, Relation.seats, List.filterMap_cons, hself, ← ih]
    -- the name of a nested join is no join
    cases naming <;> rfl
  case leaf =>
    intro r hr n layers
    rw [Relation.steps_leaf s qualify hr, Relation.seats_leaf hr, Relation.leafSteps]
    have hrefusable : ∀ construct, r.refused? = some construct → r.target? s qualify = none := by
      intro construct hrefused
      cases r with
      | table name partition arguments ordinality naming after =>
        cases arguments with
        | none => cases hrefused
        | some ps => rfl
      | _ => rfl
    cases hrefused : r.refused? with
    | some construct =>
      simp [leavesOf, Step.leaf?, Seat.leaf?, hrefusable construct hrefused]
    | none =>
      cases htarget : r.target? s qualify <;>
        simp [leavesOf, Step.leaf?, Seat.leaf?, htarget, Seat.joins]

/-- The tables of a block are those of its seats. -/
theorem RowBlock.leaves_eq (b : RowBlock) :
    b.leaves = b.seats.filterMap (Seat.leaf? b.scope b.qualify) := by
  have htrees : ∀ (ts : List JoinTree) n, leavesOf (treesSteps b.scope b.qualify n ts) =
      (treesSeats n ts).filterMap (Seat.leaf? b.scope b.qualify) := by
    intro ts
    induction ts with
    | nil => exact fun n => rfl
    | cons t ts ih =>
      intro n
      have ht := (leavesOf_steps_eq b.scope b.qualify).1 t n []
      rw [treesSteps, treesSeats, leavesOf_append, List.filterMap_append, ih, ← ht]
      rfl
  exact htrees b.trees 0

end Tables

/-! ## Numbers of relations -/

theorem countP_seats :
    (∀ t : JoinTree, ∀ n layers, (t.seats n layers).countP (·.relation.isLeaf) = t.size) ∧
    (∀ js, ∀ n layers,
      (joinsSeats n layers js).countP (·.relation.isLeaf) = joinsSize js) ∧
    ∀ r : Relation, ∀ n layers, (r.seats n layers).countP (·.relation.isLeaf) = r.size := by
  refine JoinTree.induction ?tree ?nil ?cons ?nested ?leaf
  case tree =>
    intro relation joins ihr ihjs n layers
    rw [JoinTree.seats, JoinTree.size, List.countP_append, ihr, ihjs]
  case nil => exact fun n layers => rfl
  case cons =>
    intro j js ihr ihjs n layers
    rw [joinsSeats_cons, joinsSize_cons, List.countP_append, ihr, ihjs]
  case nested =>
    intro t naming ih n layers
    rw [Relation.seats, Relation.size, List.countP_cons_of_neg (by simp [Relation.isLeaf]), ih]
  case leaf =>
    intro r hr n layers
    rw [Relation.seats_leaf hr, Relation.size_leaf hr, List.countP_singleton, if_pos hr]

theorem RowBlock.countP_seats (b : RowBlock) :
    b.seats.countP (·.relation.isLeaf) = treesSize b.trees := by
  have htrees : ∀ (ts : List JoinTree) n,
      (treesSeats n ts).countP (·.relation.isLeaf) = treesSize ts := by
    intro ts
    induction ts with
    | nil => exact fun n => rfl
    | cons t ts ih =>
      intro n
      rw [treesSeats, treesSize, List.countP_append, RowPolicy.Sql.countP_seats.1, ih]
  exact htrees b.trees 0

end RowPolicy.Sql
