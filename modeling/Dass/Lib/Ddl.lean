/-
# `Dass.Lib.Ddl` — changing the tables of a database

A relation has a schema and rows, and every row has a value where the schema wants one.  That is
in the type of a `Relation`, so an operation that changes a schema has to see to it: a column that
must have a value can be added to a relation without rows, or with a default for those it has.

An operation takes a database to another one, or fails, and a migration is a list of them in one
transaction, which does nothing if one of them fails.  What an operation does to a relation is
said once (`add_column_ok`, `drop_column_ok`, …): its schema, and its rows.
-/
import Mathlib.Data.List.Forall2
import Mathlib.Logic.Function.Basic

namespace Ddl

/-! ## Relations -/

/-- The `server_default` of a column. -/
inductive Default (ν : Type) where
  | const (value : ν)
  | now
deriving DecidableEq

/-- What it is at an instant. -/
def Default.eval {ν : Type} (now : ν) : Default ν → ν
  | .const value => value
  | .now => now

structure Column (ν : Type) where
  name : String
  type : String
  nullable : Bool
  server_default : Option (Default ν)
deriving DecidableEq

inductive Constraint where
  | primary_key (columns : List String)
  | unique (columns : List String)
  | foreign_key (column referred_table referred : String) (ondelete : String)
deriving DecidableEq

/-- The columns a constraint is on. -/
def Constraint.columns : Constraint → List String
  | .primary_key columns => columns
  | .unique columns => columns
  | .foreign_key column _ _ _ => [column]

/-- The columns, and the constraints and the indexes by their names. -/
structure Schema (ν : Type) where
  columns : List (Column ν)
  constraints : List (String × Constraint)
  indexes : List (String × List String)
deriving DecidableEq

/-- There is a column of that name. -/
def Schema.has {ν : Type} (schema : Schema ν) (column : String) : Bool :=
  schema.columns.any fun col => col.name = column

/-- The type of a column. -/
def Schema.type_of {ν : Type} (schema : Schema ν) (column : String) : Option String :=
  (schema.columns.find? fun col => col.name = column).map Column.type

/-- The value of each column, or `NULL`. -/
abbrev Row (ν : Type) := String → Option ν

structure Relation (ν : Type) where
  schema : Schema ν
  rows : List (Row ν)
  not_null : ∀ row ∈ rows, ∀ col ∈ schema.columns, col.nullable = false → row col.name ≠ none

abbrev Database (ν : Type) := String → Option (Relation ν)

/-! ## Operations -/

inductive Error where
  | undefined_table (table : String)
  | duplicate_table (table : String)
  | undefined_column (table column : String)
  | duplicate_column (table column : String)
  | not_null_violation (table column : String)
  | undefined_object (name : String)
  | datatype_mismatch (table column : String)
  | foreign_key_violation (table column : String)
deriving DecidableEq

abbrev Operation (ν : Type) := Database ν → Except Error (Database ν)

variable {ν : Type}

/-- A relation is changed, and the others are not. -/
def alter (table : String) (change : Relation ν → Except Error (Relation ν)) : Operation ν :=
  fun db =>
    match db table with
    | none => .error (.undefined_table table)
    | some rel => (change rel).map fun rel => Function.update db table (some rel)

/-- `op.add_column`, at an instant. -/
def add_column (now : ν) (table : String) (col : Column ν) : Operation ν :=
  alter table fun rel =>
    if hnew : rel.schema.has col.name = true then
      .error (.duplicate_column table col.name)
    else if hvalue : col.nullable = true ∨ col.server_default.isSome = true ∨
        rel.rows.isEmpty = true then
      .ok
        { schema := { rel.schema with columns := rel.schema.columns ++ [col] }
          rows := rel.rows.map fun row =>
            Function.update row col.name (col.server_default.map (Default.eval now))
          not_null := by
            intro row hrow c hc hnull
            obtain ⟨old, hold, rfl⟩ := List.mem_map.mp hrow
            rcases List.mem_append.mp hc with hc | hc
            · have hne : c.name ≠ col.name := fun heq =>
                hnew (List.any_eq_true.mpr ⟨c, hc, decide_eq_true heq⟩)
              rw [Function.update_of_ne hne]
              exact rel.not_null old hold c hc hnull
            · obtain rfl := List.mem_singleton.mp hc
              rw [Function.update_self]
              rcases hvalue with h | h | h
              · exact absurd h (by rw [hnull]; exact Bool.false_ne_true)
              · obtain ⟨d, hd⟩ := Option.isSome_iff_exists.mp h
                rw [hd]
                exact Option.some_ne_none _
              · exact absurd hold (by rw [List.isEmpty_iff.mp h]; exact List.not_mem_nil) }
    else .error (.not_null_violation table col.name)

/-- `op.drop_column`; the constraints and indexes on the column go with it. -/
def drop_column (table column : String) : Operation ν :=
  alter table fun rel =>
    if rel.schema.has column = true then
      .ok
        { schema :=
            { columns := rel.schema.columns.filter fun col => col.name ≠ column
              constraints := rel.schema.constraints.filter fun c => column ∉ c.2.columns
              indexes := rel.schema.indexes.filter fun i => column ∉ i.2 }
          rows := rel.rows.map fun row => Function.update row column none
          not_null := by
            intro row hrow c hc hnull
            obtain ⟨old, hold, rfl⟩ := List.mem_map.mp hrow
            obtain ⟨hc, hne⟩ := List.mem_filter.mp hc
            rw [Function.update_of_ne (of_decide_eq_true hne)]
            exact rel.not_null old hold c hc hnull }
    else .error (.undefined_column table column)

/-- `op.alter_column` to a nullable one. -/
def set_nullable (table column : String) : Operation ν :=
  alter table fun rel =>
    if rel.schema.has column = true then
      .ok
        { rel with
          schema :=
            { rel.schema with
              columns := rel.schema.columns.map fun col =>
                if col.name = column then { col with nullable := true } else col }
          not_null := by
            intro row hrow c hc hnull
            obtain ⟨col, hcol, rfl⟩ := List.mem_map.mp hc
            split at hnull
            · exact absurd hnull (by simp)
            · next hne =>
                rw [if_neg hne]
                exact rel.not_null row hrow col hcol hnull }
    else .error (.undefined_column table column)

/-- `op.create_index`. -/
def create_index (name table : String) (columns : List String) : Operation ν :=
  alter table fun rel =>
    .ok
      { rel with
        schema := { rel.schema with indexes := rel.schema.indexes ++ [(name, columns)] } }

/-- `op.drop_index`. -/
def drop_index (name table : String) : Operation ν :=
  alter table fun rel =>
    if rel.schema.indexes.any (fun i => i.1 = name) = true then
      .ok
        { rel with
          schema :=
            { rel.schema with indexes := rel.schema.indexes.filter fun i => i.1 ≠ name } }
    else .error (.undefined_object name)

/-- `op.create_foreign_key` without a name: the server has one for it. -/
def create_foreign_key [DecidableEq ν] (table referred_table column referred ondelete : String) :
    Operation ν := fun db =>
  match db referred_table with
  | none => .error (.undefined_table referred_table)
  | some target =>
      alter table (fun rel =>
        match rel.schema.type_of column, target.schema.type_of referred with
        | some type, some referred_type =>
            if type ≠ referred_type then .error (.datatype_mismatch table column)
            else if rel.rows.all (fun row => (row column).all fun value =>
                target.rows.any fun r => r referred = some value) = true then
              .ok
                { rel with
                  schema :=
                    { rel.schema with
                      constraints := rel.schema.constraints ++
                        [(table ++ "_" ++ column ++ "_fkey",
                          .foreign_key column referred_table referred ondelete)] } }
            else .error (.foreign_key_violation table column)
        | _, _ => .error (.undefined_column table column)) db

/-- `op.drop_constraint`. -/
def drop_constraint (name table : String) : Operation ν :=
  alter table fun rel =>
    if rel.schema.constraints.any (fun c => c.1 = name) = true then
      .ok
        { rel with
          schema :=
            { rel.schema with constraints := rel.schema.constraints.filter fun c => c.1 ≠ name } }
    else .error (.undefined_object name)

/-- `op.create_table`. -/
def create_table (table : String) (columns : List (Column ν))
    (constraints : List (String × Constraint)) : Operation ν := fun db =>
  match db table with
  | some _ => .error (.duplicate_table table)
  | none =>
      .ok (Function.update db table
        (some ⟨⟨columns, constraints, []⟩, [], fun _ h => absurd h List.not_mem_nil⟩))

/-- The operations of a migration, one after another. -/
def run : List (Operation ν) → Operation ν
  | [], db => .ok db
  | op :: ops, db => (op db).bind (run ops)

/-- What migrations make of an empty database. -/
def created_by (ops : List (Operation ν)) : Database ν :=
  match run ops (fun _ => none) with
  | .ok db => db
  | .error _ => fun _ => none

/-- The tables and their schemas are those that the migrations make. -/
def AtRevision (ops : List (Operation ν)) (db : Database ν) : Prop :=
  ∀ table, (db table).map Relation.schema = (created_by ops table).map Relation.schema

/-- `INSERT`; a row without a value it must have is refused. -/
def Database.insert (db : Database ν) (table : String) (row : Row ν) : Database ν :=
  match db table with
  | none => db
  | some rel =>
      if h : rel.schema.columns.all (fun col => col.nullable || (row col.name).isSome) = true then
        Function.update db table (some
          { rel with
            rows := row :: rel.rows
            not_null := by
              refine List.forall_mem_cons.mpr ⟨fun col hcol hnull => ?_, rel.not_null⟩
              have hvalue := List.all_eq_true.mp h col hcol
              rw [hnull, Bool.false_or] at hvalue
              exact Option.isSome_iff_ne_none.mp hvalue })
      else db

theorem AtRevision.insert {ops : List (Operation ν)} {db : Database ν} (h : AtRevision ops db)
    (table : String) (row : Row ν) : AtRevision ops (db.insert table row) := by
  intro t
  rw [← h t, Database.insert]
  cases hrel : db table with
  | none => rfl
  | some rel =>
      dsimp only
      split
      · by_cases ht : t = table
        · rw [ht, Function.update_self, hrel]
          rfl
        · rw [Function.update_of_ne ht]
      · rfl

theorem AtRevision.relation {ops : List (Operation ν)} {db : Database ν} (h : AtRevision ops db)
    {table : String} {p : Schema ν → Bool}
    (hp : ((created_by ops table).map Relation.schema).any p = true) :
    ∃ rel, db table = some rel ∧ p rel.schema = true := by
  rw [← h table] at hp
  cases hrel : db table with
  | none =>
      rw [hrel] at hp
      exact absurd hp Bool.false_ne_true
  | some rel =>
      rw [hrel] at hp
      exact ⟨rel, rfl, hp⟩

/-! ## What an operation does -/

section Specs

variable {db : Database ν} {table : String} {rel : Relation ν}

theorem add_column_ok (now : ν) (col : Column ν) (hrel : db table = some rel)
    (hnew : rel.schema.has col.name = false)
    (hvalue : col.nullable = true ∨ col.server_default.isSome = true ∨
      rel.rows.isEmpty = true) :
    ∃ rel', add_column now table col db = .ok (Function.update db table (some rel')) ∧
      rel'.schema = { rel.schema with columns := rel.schema.columns ++ [col] } ∧
      rel'.rows = rel.rows.map fun row =>
        Function.update row col.name (col.server_default.map (Default.eval now)) := by
  rw [add_column, alter, hrel]
  dsimp only
  rw [dif_neg (by rw [hnew]; exact Bool.false_ne_true), dif_pos hvalue]
  exact ⟨_, rfl, rfl, rfl⟩

/-- A column that must have a value, without a default, is not added to rows. -/
theorem add_column_error (now : ν) (col : Column ν) (hrel : db table = some rel)
    (hnew : rel.schema.has col.name = false) (hnull : col.nullable = false)
    (hdefault : col.server_default = none) (hrows : rel.rows ≠ []) :
    add_column now table col db = .error (.not_null_violation table col.name) := by
  have hvalue : ¬ (col.nullable = true ∨ col.server_default.isSome = true ∨
      rel.rows.isEmpty = true) := by
    simp [hnull, hdefault, hrows]
  rw [add_column, alter, hrel]
  dsimp only
  rw [dif_neg (by rw [hnew]; exact Bool.false_ne_true), dif_neg hvalue]
  rfl

theorem drop_column_ok {column : String} (hrel : db table = some rel)
    (hcolumn : rel.schema.has column = true) :
    ∃ rel', drop_column table column db = .ok (Function.update db table (some rel')) ∧
      rel'.schema.columns = (rel.schema.columns.filter fun col => col.name ≠ column) ∧
      rel'.rows = rel.rows.map fun row => Function.update row column none := by
  rw [drop_column, alter, hrel]
  dsimp only
  rw [if_pos hcolumn]
  exact ⟨_, rfl, rfl, rfl⟩

theorem drop_index_ok {name : String} (hrel : db table = some rel)
    (hname : rel.schema.indexes.any (fun i => i.1 = name) = true) :
    ∃ rel', drop_index name table db = .ok (Function.update db table (some rel')) ∧
      rel'.schema.columns = rel.schema.columns ∧ rel'.rows = rel.rows := by
  rw [drop_index, alter, hrel]
  dsimp only
  rw [if_pos hname]
  exact ⟨_, rfl, rfl, rfl⟩

theorem drop_constraint_ok {name : String} (hrel : db table = some rel)
    (hname : rel.schema.constraints.any (fun c => c.1 = name) = true) :
    ∃ rel', drop_constraint name table db = .ok (Function.update db table (some rel')) ∧
      rel'.schema.columns = rel.schema.columns ∧ rel'.rows = rel.rows := by
  rw [drop_constraint, alter, hrel]
  dsimp only
  rw [if_pos hname]
  exact ⟨_, rfl, rfl, rfl⟩

/-- A foreign key on a column without values. -/
theorem create_foreign_key_ok [DecidableEq ν] {column referred_table referred : String}
    (ondelete : String) {target : Relation ν} {type : String}
    (htarget : db referred_table = some target) (hrel : db table = some rel)
    (htype : rel.schema.type_of column = some type)
    (hreferred : target.schema.type_of referred = some type)
    (hnull : ∀ row ∈ rel.rows, row column = none) :
    ∃ rel', create_foreign_key table referred_table column referred ondelete db =
        .ok (Function.update db table (some rel')) ∧
      rel'.schema.columns = rel.schema.columns ∧ rel'.rows = rel.rows := by
  have hall : rel.rows.all (fun row => (row column).all fun value =>
      target.rows.any fun r => r referred = some value) = true :=
    List.all_eq_true.mpr fun row hrow => by rw [hnull row hrow]; rfl
  rw [create_foreign_key, htarget]
  dsimp only
  rw [alter, hrel]
  dsimp only
  rw [htype, hreferred]
  dsimp only
  rw [if_neg (not_not.mpr rfl), if_pos hall]
  exact ⟨_, rfl, rfl, rfl⟩

theorem create_table_ok (columns : List (Column ν)) (constraints : List (String × Constraint))
    (hnew : db table = none) :
    ∃ rel', create_table table columns constraints db =
        .ok (Function.update db table (some rel')) ∧ rel'.rows = [] := by
  rw [create_table, hnew]
  exact ⟨_, rfl, rfl⟩

theorem run_cons_ok {op : Operation ν} {ops : List (Operation ν)} {db' : Database ν}
    (h : op db = .ok db') : run (op :: ops) db = run ops db' := by
  rw [run, h]
  rfl

theorem run_cons_error {op : Operation ν} {ops : List (Operation ν)} {error : Error}
    (h : op db = .error error) : run (op :: ops) db = .error error := by
  rw [run, h]
  rfl

end Specs

/-! ## Rows that are kept -/

/-- Every row is there after, with what it had in the columns that are. -/
def KeepsRows (table : String) (db db' : Database ν) : Prop :=
  ∃ rel rel', db table = some rel ∧ db' table = some rel' ∧
    List.Forall₂ (fun row row' => ∀ column, rel.schema.has column = true →
      rel'.schema.has column = true → row' column = row column) rel.rows rel'.rows

/-- Rows that are changed in a column which was not there, or is not any more. -/
theorem keepsRows_of_update {table column : String} {db db' : Database ν} {rel rel' : Relation ν}
    {value : Option ν} (hrel : db table = some rel) (hrel' : db' table = some rel')
    (hcolumn : rel.schema.has column = false ∨ rel'.schema.has column = false)
    (hrows : rel'.rows = rel.rows.map fun row => Function.update row column value) :
    KeepsRows table db db' := by
  refine ⟨rel, rel', hrel, hrel', ?_⟩
  rw [hrows, List.forall₂_map_right_iff]
  refine List.forall₂_same.mpr fun row _ c hc hc' => Function.update_of_ne ?_ _ _
  rintro rfl
  rcases hcolumn with h | h
  · exact Bool.false_ne_true (h.symm.trans hc)
  · exact Bool.false_ne_true (h.symm.trans hc')

theorem keepsRows_of_rows {table : String} {db db' : Database ν} {rel rel' : Relation ν}
    (hrel : db table = some rel) (hrel' : db' table = some rel') (hrows : rel'.rows = rel.rows) :
    KeepsRows table db db' := by
  refine ⟨rel, rel', hrel, hrel', ?_⟩
  rw [hrows]
  exact List.forall₂_same.mpr fun row _ c _ _ => rfl

end Ddl
