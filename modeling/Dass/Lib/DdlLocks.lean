/-
# `Dass.Lib.DdlLocks` — changing tables beside other clients

An operation that reads and changes some tables alone (`On`) does to a database what it does to
any other that has those tables as they are.  So a transaction which locks the tables of every
operation before it, and whose clients write to other tables in the meantime, has done what it
would have done at once on the database of the moment (`run_beside`).

The schemas an operation leaves depend on the schemas it finds (`SameSchemas`), whatever the rows
and whenever it is.
-/
import Dass.Lib.Ddl

namespace Ddl

variable {ν : Type}

/-! ## Some tables of a database -/

/-- Some tables as one database has them, and the others as another does. -/
def overlay (tables : List String) (own db : Database ν) : Database ν := fun table =>
  if table ∈ tables then own table else db table

section Overlay

variable {tables more : List String} {own db db' : Database ν} {table : String}

theorem overlay_of_mem (h : table ∈ tables) : overlay tables own db table = own table := if_pos h

theorem overlay_of_not_mem (h : table ∉ tables) : overlay tables own db table = db table :=
  if_neg h

/-- What the tables are of does not matter where they agree. -/
theorem overlay_congr (hown : ∀ table ∈ tables, own table = db' table) :
    overlay tables own db = overlay tables db' db := by
  funext table
  by_cases h : table ∈ tables
  · rw [overlay_of_mem h, overlay_of_mem h, hown table h]
  · rw [overlay_of_not_mem h, overlay_of_not_mem h]

theorem overlay_self : overlay tables db db = db := by
  funext table
  exact ite_self _

/-- A database that has the tables is one of theirs. -/
theorem eq_overlay (h : ∀ table ∈ tables, db table = own table) : db = overlay tables own db := by
  rw [← overlay_congr h, overlay_self]

/-- Tables of tables. -/
theorem overlay_overlay :
    overlay tables (overlay tables own db) db' = overlay tables own db' := by
  exact overlay_congr fun table h => overlay_of_mem h

end Overlay

/-! ## Operations on some tables -/

/-- The operation reads and changes those tables alone. -/
def On (tables : List String) (op : Operation ν) : Prop :=
  ∀ own db, op (overlay tables own db) = (op own).map fun own' => overlay tables own' db

section On

variable {tables more : List String} {op : Operation ν} {db db' : Database ν} {table : String}

/-- The others stay as they are. -/
theorem On.frame (h : On tables op) (hop : op db = .ok db') : db' = overlay tables db' db := by
  have hself := h db db
  rw [overlay_self, hop] at hself
  exact Except.ok.inj hself

theorem On.mono (h : On tables op) (hsub : tables ⊆ more) : On more op := by
  intro own db
  have hagree : ∀ table ∈ tables, overlay more own db table = own table :=
    fun table ht => overlay_of_mem (hsub ht)
  rw [eq_overlay hagree, h]
  cases hop : op own with
  | error => rfl
  | ok own' =>
      have hframe := h.frame hop
      refine congrArg Except.ok (funext fun table => ?_)
      change overlay tables own' (overlay more own db) table = overlay more own' db table
      by_cases ht : table ∈ tables
      · rw [overlay_of_mem ht, overlay_of_mem (hsub ht)]
      · rw [overlay_of_not_mem ht]
        by_cases hm : table ∈ more
        · rw [overlay_of_mem hm, overlay_of_mem hm, hframe, overlay_of_not_mem ht]
        · rw [overlay_of_not_mem hm, overlay_of_not_mem hm]

theorem overlay_update (rel : Option (Relation ν)) (own db : Database ν) :
    Function.update (overlay [table] own db) table rel =
      overlay [table] (Function.update own table rel) db := by
  funext t
  by_cases ht : t = table
  · rw [ht, Function.update_self, overlay_of_mem (List.mem_singleton.mpr rfl),
      Function.update_self]
  · have hnot : t ∉ [table] := fun h => ht (List.mem_singleton.mp h)
    rw [Function.update_of_ne ht, overlay_of_not_mem hnot, overlay_of_not_mem hnot]

theorem alter_on (change : Relation ν → Except Error (Relation ν)) :
    On [table] (alter table change) := by
  intro own db
  unfold alter
  rw [overlay_of_mem (List.mem_singleton.mpr rfl)]
  cases own table with
  | none => rfl
  | some rel =>
      dsimp only
      cases change rel with
      | error => rfl
      | ok rel' => exact congrArg Except.ok (overlay_update _ own db)

theorem create_table_on (columns : List (Column ν)) (constraints : List (String × Constraint)) :
    On [table] (create_table table columns constraints) := by
  intro own db
  unfold create_table
  rw [overlay_of_mem (List.mem_singleton.mpr rfl)]
  cases own table with
  | some rel => rfl
  | none => exact congrArg Except.ok (overlay_update _ own db)

theorem create_foreign_key_on [DecidableEq ν] (referred_table column referred ondelete : String) :
    On [table, referred_table]
      (create_foreign_key table referred_table column referred ondelete : Operation ν) := by
  intro own db
  have hreferred : referred_table ∈ [table, referred_table] := by simp
  unfold create_foreign_key
  rw [overlay_of_mem hreferred]
  cases own referred_table with
  | none => rfl
  | some target => exact (alter_on _).mono (by simp) own db

theorem run_on {ops : List (Operation ν)} (h : ∀ op ∈ ops, On tables op) : On tables (run ops) := by
  intro own db
  induction ops generalizing own with
  | nil => rfl
  | cons op ops ih =>
      obtain ⟨hop, hops⟩ := List.forall_mem_cons.mp h
      rw [run, run, hop]
      cases op own with
      | error => rfl
      | ok own' => exact ih hops own'

end On

/-! ## A transaction beside others -/

section Beside

variable {tables more : List String} {ops : List (Operation ν)} {db db' own own' : Database ν}

/-- Other tables may be written to while it runs. -/
theorem run_beside (h : ∀ op ∈ ops, On tables op) (hrun : run ops db = .ok (overlay tables own db))
    (hsame : ∀ table ∈ tables, db' table = db table) :
    run ops db' = .ok (overlay tables own db') := by
  rw [eq_overlay hsame, run_on h, hrun]
  exact congrArg Except.ok
    (overlay_overlay.trans (congrArg (overlay tables own) (eq_overlay hsame).symm).symm)

theorem run_append (ops more : List (Operation ν)) :
    run (ops ++ more) db = (run ops db).bind (run more) := by
  induction ops generalizing db with
  | nil => rfl
  | cons op ops ih =>
      rw [List.cons_append, run, run]
      cases op db with
      | error => rfl
      | ok db' => exact ih

/-- It goes on with another operation, and locks its tables. -/
theorem run_snoc {op : Operation ν} (hops : ∀ op ∈ ops, On tables op) (hop : On more op)
    (hrun : run ops db = .ok (overlay tables own db))
    (hok : op (overlay tables own db) = .ok own') :
    run (ops ++ [op]) db = .ok (overlay (tables ++ more) own' db) := by
  have hall : ∀ o ∈ ops ++ [op], On (tables ++ more) o := by
    intro o ho
    rcases List.mem_append.mp ho with ho | ho
    · exact (hops o ho).mono (List.subset_append_left _ _)
    · exact List.mem_singleton.mp ho ▸ hop.mono (List.subset_append_right _ _)
  have hrun' : run (ops ++ [op]) db = .ok own' := by
    rw [run_append, hrun, Except.bind, run, hok]
    rfl
  rw [hrun', ← (run_on hall).frame hrun']

end Beside

/-! ## Schemas alone -/

def Database.schemas (db : Database ν) : String → Option (Schema ν) := fun table =>
  (db table).map Relation.schema

theorem atRevision_iff {ops : List (Operation ν)} {db : Database ν} :
    AtRevision ops db ↔ db.schemas = (created_by ops).schemas :=
  funext_iff.symm

/-- From the same schemas the operations come to the same ones. -/
def SameSchemas (op₁ op₂ : Operation ν) : Prop :=
  ∀ {db₁ db₂ db₁' db₂' : Database ν}, db₁.schemas = db₂.schemas → op₁ db₁ = .ok db₁' →
    op₂ db₂ = .ok db₂' → db₁'.schemas = db₂'.schemas

/-- … as they do on a relation. -/
def SameSchema (change₁ change₂ : Relation ν → Except Error (Relation ν)) : Prop :=
  ∀ {rel₁ rel₂ rel₁' rel₂' : Relation ν}, rel₁.schema = rel₂.schema → change₁ rel₁ = .ok rel₁' →
    change₂ rel₂ = .ok rel₂' → rel₁'.schema = rel₂'.schema

section Schemas

variable {table : String}

theorem schemas_update {db : Database ν} {rel : Relation ν} :
    Database.schemas (Function.update db table (some rel)) =
      Function.update db.schemas table (some rel.schema) := by
  funext t
  by_cases ht : t = table
  · rw [ht, Database.schemas, Function.update_self, Function.update_self]
    rfl
  · rw [Database.schemas, Function.update_of_ne ht, Function.update_of_ne ht]
    rfl

/-- Rows are written. -/
theorem AtRevision.write {ops : List (Operation ν)} {db : Database ν} {rel rel' : Relation ν}
    (h : AtRevision ops db) (hrel : db table = some rel) (hschema : rel'.schema = rel.schema) :
    AtRevision ops (Function.update db table (some rel')) := by
  rw [atRevision_iff] at h ⊢
  rw [schemas_update, hschema, ← h]
  refine Function.update_eq_self_iff.mpr ?_
  rw [Database.schemas, hrel]
  rfl

/-- What it did to the relation. -/
theorem alter_eq_ok {change : Relation ν → Except Error (Relation ν)} {db db' : Database ν}
    (h : alter table change db = .ok db') :
    ∃ rel rel', db table = some rel ∧ change rel = .ok rel' ∧
      db' = Function.update db table (some rel') := by
  unfold alter at h
  split at h
  · cases h
  · next rel hrel =>
      cases hchange : change rel with
      | error e =>
          rw [hchange] at h
          cases h
      | ok rel' =>
          rw [hchange] at h
          exact ⟨rel, rel', hrel, hchange, (Except.ok.inj h).symm⟩

theorem alter_sameSchemas {change₁ change₂ : Relation ν → Except Error (Relation ν)}
    (h : SameSchema change₁ change₂) : SameSchemas (alter table change₁) (alter table change₂) := by
  intro db₁ db₂ db₁' db₂' hsame h₁ h₂
  obtain ⟨rel₁, rel₁', hrel₁, hchange₁, rfl⟩ := alter_eq_ok h₁
  obtain ⟨rel₂, rel₂', hrel₂, hchange₂, rfl⟩ := alter_eq_ok h₂
  have hschema : rel₁.schema = rel₂.schema := by
    have htable := congrFun hsame table
    rw [Database.schemas, Database.schemas, hrel₁, hrel₂] at htable
    exact Option.some.inj htable
  rw [schemas_update, schemas_update, hsame, h hschema hchange₁ hchange₂]

/-- Changes that make the same schema of one, if they make any. -/
theorem alter_sameSchemas_of {change₁ change₂ : Relation ν → Except Error (Relation ν)}
    {f : Schema ν → Schema ν} (h₁ : ∀ rel rel', change₁ rel = .ok rel' → rel'.schema = f rel.schema)
    (h₂ : ∀ rel rel', change₂ rel = .ok rel' → rel'.schema = f rel.schema) :
    SameSchemas (alter table change₁) (alter table change₂) :=
  alter_sameSchemas fun hschema hok₁ hok₂ => by rw [h₁ _ _ hok₁, h₂ _ _ hok₂, hschema]

/-- … one change. -/
theorem alter_sameSchemas_self {change : Relation ν → Except Error (Relation ν)}
    {f : Schema ν → Schema ν} (h : ∀ rel rel', change rel = .ok rel' → rel'.schema = f rel.schema) :
    SameSchemas (alter table change) (alter table change) :=
  alter_sameSchemas_of h h

/-- Under a condition, or not at all. -/
theorem eq_of_ite_ok {α ε : Type} {c : Prop} [Decidable c] {a b : α} {e : ε}
    (h : (if c then Except.ok a else .error e) = .ok b) : b = a := by
  split at h
  · exact (Except.ok.inj h).symm
  · cases h

theorem add_column_sameSchemas (now₁ now₂ : ν) (col : Column ν) :
    SameSchemas (add_column now₁ table col) (add_column now₂ table col) := by
  refine alter_sameSchemas_of
    (f := fun schema => { schema with columns := schema.columns ++ [col] }) ?_ ?_ <;>
  · intro rel rel' h
    dsimp only at h
    split at h
    · cases h
    · split at h
      · cases h
        rfl
      · cases h

theorem drop_column_sameSchemas (column : String) :
    SameSchemas (drop_column table column : Operation ν) (drop_column table column) :=
  alter_sameSchemas_self
    (f := fun schema =>
      { columns := schema.columns.filter fun col => col.name ≠ column
        constraints := schema.constraints.filter fun c => column ∉ c.2.columns
        indexes := schema.indexes.filter fun i => column ∉ i.2 })
    fun _ _ h => congrArg Relation.schema (eq_of_ite_ok h)

theorem set_nullable_sameSchemas (column : String) :
    SameSchemas (set_nullable table column : Operation ν) (set_nullable table column) :=
  alter_sameSchemas_self
    (f := fun schema =>
      { schema with
        columns := schema.columns.map fun col =>
          if col.name = column then { col with nullable := true } else col })
    fun _ _ h => congrArg Relation.schema (eq_of_ite_ok h)

theorem create_index_sameSchemas (name : String) (columns : List String) :
    SameSchemas (create_index name table columns : Operation ν) (create_index name table columns) :=
  alter_sameSchemas_self
    (f := fun schema => { schema with indexes := schema.indexes ++ [(name, columns)] })
    fun _ _ h => congrArg Relation.schema (Except.ok.inj h).symm

theorem drop_index_sameSchemas (name : String) :
    SameSchemas (drop_index name table : Operation ν) (drop_index name table) :=
  alter_sameSchemas_self
    (f := fun schema => { schema with indexes := schema.indexes.filter fun i => i.1 ≠ name })
    fun _ _ h => congrArg Relation.schema (eq_of_ite_ok h)

theorem drop_constraint_sameSchemas (name : String) :
    SameSchemas (drop_constraint name table : Operation ν) (drop_constraint name table) :=
  alter_sameSchemas_self
    (f := fun schema =>
      { schema with constraints := schema.constraints.filter fun c => c.1 ≠ name })
    fun _ _ h => congrArg Relation.schema (eq_of_ite_ok h)

theorem create_foreign_key_sameSchemas [DecidableEq ν]
    (referred_table column referred ondelete : String) :
    SameSchemas
      (create_foreign_key table referred_table column referred ondelete : Operation ν)
      (create_foreign_key table referred_table column referred ondelete) := by
  intro db₁ db₂ db₁' db₂' hsame h₁ h₂
  unfold create_foreign_key at h₁ h₂
  split at h₁
  · cases h₁
  split at h₂
  · cases h₂
  refine alter_sameSchemas_of
    (f := fun schema =>
      { schema with
        constraints := schema.constraints ++
          [(table ++ "_" ++ column ++ "_fkey",
            .foreign_key column referred_table referred ondelete)] }) ?_ ?_ hsame h₁ h₂ <;>
  · intro rel rel' h
    split at h
    · split at h
      · cases h
      · exact congrArg Relation.schema (eq_of_ite_ok h)
    · cases h

theorem create_table_sameSchemas (columns : List (Column ν))
    (constraints : List (String × Constraint)) :
    SameSchemas (create_table table columns constraints)
      (create_table table columns constraints) := by
  intro db₁ db₂ db₁' db₂' hsame h₁ h₂
  unfold create_table at h₁ h₂
  split at h₁
  · cases h₁
  split at h₂
  · cases h₂
  cases h₁
  cases h₂
  rw [schemas_update, schemas_update, hsame]

theorem run_sameSchemas {ops₁ ops₂ : List (Operation ν)}
    (h : List.Forall₂ SameSchemas ops₁ ops₂) : SameSchemas (run ops₁) (run ops₂) := by
  intro db₁ db₂ db₁' db₂' hsame h₁ h₂
  induction h generalizing db₁ db₂ with
  | nil =>
      cases h₁
      cases h₂
      exact hsame
  | @cons op₁ op₂ _ _ hop _ ih =>
      rw [run] at h₁ h₂
      cases hop₁ : op₁ db₁ with
      | error e =>
          rw [hop₁] at h₁
          cases h₁
      | ok mid₁ =>
          cases hop₂ : op₂ db₂ with
          | error e =>
              rw [hop₂] at h₂
              cases h₂
          | ok mid₂ =>
              rw [hop₁] at h₁
              rw [hop₂] at h₂
              exact ih (hop hsame hop₁ hop₂) h₁ h₂

/-- Migrations take a database at a revision to the next one. -/
theorem AtRevision.run {revision ops₁ ops₂ : List (Operation ν)} {db db' : Database ν}
    (h : AtRevision revision db) (hsame : List.Forall₂ SameSchemas ops₁ ops₂)
    (hmade : (Ddl.run (revision ++ ops₂) fun _ => none).toBool = true)
    (hrun : Ddl.run ops₁ db = .ok db') : AtRevision (revision ++ ops₂) db' := by
  rw [atRevision_iff] at h ⊢
  have hcreated : ∀ {ops : List (Operation ν)} {made : Database ν},
      Ddl.run ops (fun _ => none) = .ok made → created_by ops = made := by
    intro ops made hops
    rw [created_by, hops]
  cases hall : Ddl.run (revision ++ ops₂) fun _ => none with
  | error e =>
      rw [hall] at hmade
      cases hmade
  | ok made =>
      have hparts := hall
      rw [run_append] at hparts
      cases hmid : Ddl.run revision fun _ => none with
      | error e =>
          rw [hmid] at hparts
          cases hparts
      | ok mid =>
          rw [hmid] at hparts
          rw [hcreated hmid] at h
          rw [hcreated hall]
          exact run_sameSchemas hsame h hrun hparts

end Schemas

end Ddl
