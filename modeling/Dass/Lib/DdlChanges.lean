/-
# `Dass.Lib.DdlChanges` — what is left of the rows

The operations of a way back: a table is dropped, where no other refers to it; a column has to have
a value again, where all rows have one; and a constraint is dropped of which no name is known, for
which there is no statement.

`Changes` says of an operation which tables it may drop and which columns it may change.  All else
is as it was, row by row, and so it is after a migration of such operations (`run_changes`).  The
rows of a table are kept (`KeepsRows`) by a migration that changes it in columns which were not
there before, or are not after (`keepsRows_of_changes`).
-/
import Dass.Lib.DdlLocks

namespace Ddl

variable {ν : Type}

/-! ## Operations of a way back -/

/-- The constraint refers to the table. -/
def Constraint.refers (table : String) : Constraint → Bool
  | .primary_key _ => false
  | .unique _ => false
  | .foreign_key _ referred_table _ _ => referred_table = table

/-- Another one of the tables refers to it. -/
def referred (tables : List String) (db : Database ν) (table : String) : Bool :=
  tables.any fun other => other ≠ table &&
    (db other).any fun rel => rel.schema.constraints.any fun c => c.2.refers table

/-- `op.drop_table`, in a database of these tables. -/
def drop_table (tables : List String) (table : String) : Operation ν := fun db =>
  match db table with
  | none => .error (.undefined_table table)
  | some _ =>
      if referred tables db table = true then .error (.foreign_key_violation table "")
      else .ok (Function.update db table none)

/-- `op.alter_column` to one that must have a value. -/
def set_not_null (table column : String) : Operation ν :=
  alter table fun rel =>
    if rel.schema.has column = true then
      if hvalue : rel.rows.all (fun row => (row column).isSome) = true then
        .ok
          { rel with
            schema :=
              { rel.schema with
                columns := rel.schema.columns.map fun col =>
                  if col.name = column then { col with nullable := false } else col }
            not_null := by
              intro row hrow c hc hnull
              obtain ⟨col, hcol, rfl⟩ := List.mem_map.mp hc
              split at hnull
              · next heq =>
                  rw [if_pos heq]
                  exact Option.isSome_iff_ne_none.mp
                    (heq ▸ List.all_eq_true.mp hvalue row hrow)
              · next hne =>
                  rw [if_neg hne]
                  exact rel.not_null row hrow col hcol hnull }
      else .error (.not_null_violation table column)
    else .error (.undefined_column table column)

/-- `op.drop_constraint` of `None`, which is refused before any statement. -/
def drop_unnamed_constraint (_table : String) : Operation ν := fun _ =>
  .error (.undefined_object "None")

section Reversal

variable {tables : List String} {table : String} {db db' : Database ν}

theorem drop_table_ok {rel : Relation ν} (hrel : db table = some rel)
    (hfree : referred tables db table = false) :
    drop_table tables table db = .ok (Function.update db table none) := by
  rw [drop_table, hrel]
  dsimp only
  rw [if_neg (by rw [hfree]; exact Bool.false_ne_true)]

theorem drop_table_eq_ok (h : drop_table tables table db = .ok db') :
    db' = Function.update db table none := by
  unfold drop_table at h
  split at h
  · cases h
  · split at h
    · cases h
    · exact (Except.ok.inj h).symm

theorem drop_table_on (h : table ∈ tables) : On tables (drop_table tables table : Operation ν) := by
  intro own db
  have hreferred : referred tables (overlay tables own db) table = referred tables own table := by
    refine Bool.eq_iff_iff.mpr ?_
    simp only [referred, List.any_eq_true]
    refine exists_congr fun other => and_congr_right fun hother => ?_
    rw [overlay_of_mem hother]
  unfold drop_table
  rw [overlay_of_mem h, hreferred]
  cases own table with
  | none => rfl
  | some rel =>
      dsimp only
      split
      · rfl
      · refine congrArg Except.ok (funext fun t => ?_)
        change Function.update (overlay tables own db) table none t =
          overlay tables (Function.update own table none) db t
        by_cases ht : t = table
        · rw [ht, Function.update_self, overlay_of_mem h, Function.update_self]
        · rw [Function.update_of_ne ht]
          by_cases hmem : t ∈ tables
          · rw [overlay_of_mem hmem, overlay_of_mem hmem, Function.update_of_ne ht]
          · rw [overlay_of_not_mem hmem, overlay_of_not_mem hmem]

theorem drop_table_sameSchemas :
    SameSchemas (drop_table tables table : Operation ν) (drop_table tables table) := by
  have hschemas : ∀ db : Database ν, Database.schemas (Function.update db table none) =
      Function.update db.schemas table none := by
    intro db
    funext t
    by_cases ht : t = table
    · rw [ht, Database.schemas, Function.update_self, Function.update_self]
      rfl
    · rw [Database.schemas, Function.update_of_ne ht, Function.update_of_ne ht]
      rfl
  intro db₁ db₂ db₁' db₂' hsame h₁ h₂
  rw [drop_table_eq_ok h₁, drop_table_eq_ok h₂, hschemas, hschemas, hsame]

/-- Operations one of which is refused on every database. -/
theorem run_refused {before after : List (Operation ν)} {op : Operation ν}
    (h : ∀ db db', run before db = .ok db' → (op db').toBool = false) (db : Database ν) :
    (run (before ++ op :: after) db).toBool = false := by
  rw [run_append]
  cases hbefore : run before db with
  | error e => rfl
  | ok mid =>
      have hop := h db mid hbefore
      change (run (op :: after) mid).toBool = false
      rw [run]
      cases hmid : op mid with
      | error e => rfl
      | ok _ =>
          rw [hmid] at hop
          cases hop

/-- Tables that no operation is on are not made. -/
theorem created_by_of_not_mem {ops : List (Operation ν)} (h : ∀ op ∈ ops, On tables op)
    (ht : table ∉ tables) : created_by ops table = none := by
  unfold created_by
  cases hrun : run ops fun _ => none with
  | error e => rfl
  | ok made => exact (congrFun ((run_on h).frame hrun) table).trans (overlay_of_not_mem ht)

/-- Operations that make the same schemas of these tables come to one revision. -/
theorem AtRevision.congr {ops ops' : List (Operation ν)} (h : AtRevision ops db)
    (hon : ∀ op ∈ ops, On tables op) (hon' : ∀ op ∈ ops', On tables op)
    (hsame : ∀ table ∈ tables, (created_by ops table).map Relation.schema =
      (created_by ops' table).map Relation.schema) : AtRevision ops' db := by
  intro table
  rw [h table]
  by_cases ht : table ∈ tables
  · exact hsame table ht
  · rw [created_by_of_not_mem hon ht, created_by_of_not_mem hon' ht]

/-- A table is referred to as the operations make it. -/
theorem AtRevision.referred {ops : List (Operation ν)} (h : AtRevision ops db) :
    Ddl.referred tables db table = Ddl.referred tables (created_by ops) table := by
  have hschema : ∀ (other : String) (p : Schema ν → Bool),
      ((db other).any fun rel => p rel.schema) =
        (created_by ops other).any fun rel => p rel.schema := by
    intro other p
    have hany := congrArg (Option.any p) (h other)
    rwa [Option.any_map, Option.any_map] at hany
  unfold Ddl.referred
  refine Bool.eq_iff_iff.mpr ?_
  simp only [hschema _ fun schema => schema.constraints.any fun c => c.2.refers table]

/-- A column is there if the operations make it. -/
theorem AtRevision.has {ops : List (Operation ν)} (h : AtRevision ops db) {rel : Relation ν}
    (hrel : db table = some rel) (column : String) :
    ((created_by ops table).map Relation.schema).any (·.has column) = rel.schema.has column := by
  rw [← h table, hrel]
  rfl

end Reversal

/-! ## What is changed -/

/-- The rows are the same but in some columns of the table. -/
def SameRows (columns : List (String × String)) (table : String) (rows rows' : List (Row ν)) :
    Prop :=
  List.Forall₂ (fun row row' => ∀ column, (table, column) ∉ columns → row' column = row column)
    rows rows'

/-- The operation drops none but these tables, and changes the rows of the others in none but these
columns. -/
def Changes (dropped : List String) (columns : List (String × String)) (op : Operation ν) : Prop :=
  ∀ db db' : Database ν, op db = .ok db' → ∀ table ∉ dropped, ∀ rel, db table = some rel →
    ∃ rel', db' table = some rel' ∧ SameRows columns table rel.rows rel'.rows

section Changes

variable {dropped : List String} {columns : List (String × String)} {table column : String}
  {op : Operation ν} {ops : List (Operation ν)} {db db' : Database ν}

theorem sameRows_refl (rows : List (Row ν)) : SameRows columns table rows rows :=
  List.forall₂_same.mpr fun _ _ _ _ => rfl

theorem SameRows.trans {rows₁ rows₂ rows₃ : List (Row ν)} (h : SameRows columns table rows₁ rows₂)
    (h' : SameRows columns table rows₂ rows₃) : SameRows columns table rows₁ rows₃ := by
  induction h generalizing rows₃ with
  | nil =>
      cases h'
      exact .nil
  | cons hrow _ ih =>
      cases h' with
      | cons hrow' hrest' =>
          exact .cons (fun column hnot => (hrow' column hnot).trans (hrow column hnot)) (ih hrest')

/-- The rows are given a value in a column. -/
theorem sameRows_update (h : (table, column) ∈ columns) (value : Option ν) (rows : List (Row ν)) :
    SameRows columns table rows (rows.map fun row => Function.update row column value) := by
  refine List.forall₂_map_right_iff.mpr (List.forall₂_same.mpr fun row _ c hnot => ?_)
  refine Function.update_of_ne ?_ _ _
  rintro rfl
  exact hnot h

theorem alter_changes {change : Relation ν → Except Error (Relation ν)}
    (h : ∀ rel rel', change rel = .ok rel' → SameRows columns table rel.rows rel'.rows) :
    Changes dropped columns (alter table change) := by
  intro db db' hop t _ rel hrel
  obtain ⟨old, new, hold, hchange, rfl⟩ := alter_eq_ok hop
  by_cases ht : t = table
  · subst ht
    obtain rfl := Option.some.inj (hold.symm.trans hrel)
    exact ⟨new, Function.update_self _ _ _, h old new hchange⟩
  · exact ⟨rel, (Function.update_of_ne ht _ _).trans hrel, sameRows_refl _⟩

/-- The schema is changed, and the rows are not. -/
theorem alter_keeps {change : Relation ν → Except Error (Relation ν)}
    (h : ∀ rel rel', change rel = .ok rel' → rel'.rows = rel.rows) :
    Changes dropped columns (alter table change) :=
  alter_changes fun rel rel' hchange => (h rel rel' hchange).symm ▸ sameRows_refl _

theorem add_column_changes (now : ν) {col : Column ν} (h : (table, col.name) ∈ columns) :
    Changes dropped columns (add_column now table col) := by
  refine alter_changes fun rel rel' hchange => ?_
  dsimp only at hchange
  split at hchange
  · cases hchange
  · split at hchange
    · cases hchange
      exact sameRows_update h _ _
    · cases hchange

theorem drop_column_changes (h : (table, column) ∈ columns) :
    Changes dropped columns (drop_column table column : Operation ν) :=
  alter_changes fun rel rel' hchange => by
    rw [eq_of_ite_ok hchange]
    exact sameRows_update h _ _

theorem set_nullable_changes :
    Changes dropped columns (set_nullable table column : Operation ν) :=
  alter_keeps fun _ _ hchange => by rw [eq_of_ite_ok hchange]

theorem create_index_changes (name : String) (cols : List String) :
    Changes dropped columns (create_index name table cols : Operation ν) :=
  alter_keeps fun _ _ hchange => by rw [← Except.ok.inj hchange]

theorem drop_index_changes (name : String) :
    Changes dropped columns (drop_index name table : Operation ν) :=
  alter_keeps fun _ _ hchange => by rw [eq_of_ite_ok hchange]

theorem drop_constraint_changes (name : String) :
    Changes dropped columns (drop_constraint name table : Operation ν) :=
  alter_keeps fun _ _ hchange => by rw [eq_of_ite_ok hchange]

theorem create_foreign_key_changes [DecidableEq ν] (referred_table ondelete referred : String) :
    Changes dropped columns
      (create_foreign_key table referred_table column referred ondelete : Operation ν) := by
  intro db db' hop
  unfold create_foreign_key at hop
  split at hop
  · cases hop
  · refine alter_keeps (fun rel rel' hchange => ?_) db db' hop
    split at hchange
    · split at hchange
      · cases hchange
      · rw [eq_of_ite_ok hchange]
    · cases hchange

theorem create_table_changes (cols : List (Column ν)) (constraints : List (String × Constraint)) :
    Changes dropped columns (create_table table cols constraints) := by
  intro db db' hop t _ rel hrel
  unfold create_table at hop
  split at hop
  · cases hop
  · next hnew =>
      cases hop
      have ht : t ≠ table := by
        rintro rfl
        exact Option.some_ne_none _ (hrel.symm.trans hnew)
      exact ⟨rel, (Function.update_of_ne ht _ _).trans hrel, sameRows_refl _⟩

theorem drop_table_changes {tables : List String} (h : table ∈ dropped) :
    Changes dropped columns (drop_table tables table : Operation ν) := by
  intro db db' hop t hkept rel hrel
  rw [drop_table_eq_ok hop]
  have ht : t ≠ table := fun heq => hkept (heq ▸ h)
  exact ⟨rel, (Function.update_of_ne ht _ _).trans hrel, sameRows_refl _⟩

theorem Changes.mono {more : List (String × String)} (h : Changes dropped columns op)
    (hsub : columns ⊆ more) : Changes dropped more op := by
  intro db db' hop table hkept rel hrel
  obtain ⟨rel', hrel', hrows⟩ := h db db' hop table hkept rel hrel
  exact ⟨rel', hrel', hrows.imp fun _ _ hrow column hnot => hrow column fun hmem =>
    hnot (hsub hmem)⟩

/-- Migrations change what each of them does. -/
theorem flatten_changes {migrations : List (List (Operation ν))}
    {changed : List (List (String × String))}
    (h : List.Forall₂ (fun ops columns => ∀ op ∈ ops, Changes dropped columns op) migrations
      changed) : ∀ op ∈ migrations.flatten, Changes dropped changed.flatten op := by
  induction h with
  | nil => exact fun op hop => absurd hop List.not_mem_nil
  | cons hfirst _ ih =>
      intro op hop
      rcases List.mem_append.mp hop with hop | hop
      · exact (hfirst op hop).mono (List.subset_append_left _ _)
      · exact (ih op hop).mono (List.subset_append_right _ _)

/-- So does a migration. -/
theorem run_changes (h : ∀ op ∈ ops, Changes dropped columns op) :
    Changes dropped columns (run ops) := by
  induction ops with
  | nil =>
      intro db db' hrun table _ rel hrel
      cases hrun
      exact ⟨rel, hrel, sameRows_refl _⟩
  | cons op ops ih =>
      obtain ⟨hop, hops⟩ := List.forall_mem_cons.mp h
      intro db db' hrun table hkept rel hrel
      rw [run] at hrun
      cases hmid : op db with
      | error e =>
          rw [hmid] at hrun
          cases hrun
      | ok mid =>
          rw [hmid] at hrun
          obtain ⟨rel₁, hrel₁, hrows₁⟩ := hop db mid hmid table hkept rel hrel
          obtain ⟨rel₂, hrel₂, hrows₂⟩ := ih hops mid db' hrun table hkept rel₁ hrel₁
          exact ⟨rel₂, hrel₂, hrows₁.trans hrows₂⟩

/-- Columns that were not there before, or are not after, are not of the rows that are kept. -/
theorem keepsRows_of_changes (h : Changes dropped columns op) (hop : op db = .ok db')
    (hkept : table ∉ dropped) {rel : Relation ν} (hrel : db table = some rel)
    (hcolumns : ∀ column, (table, column) ∈ columns → rel.schema.has column = true →
      ∀ rel', db' table = some rel' → rel'.schema.has column = false) :
    KeepsRows table db db' := by
  obtain ⟨rel', hrel', hrows⟩ := h db db' hop table hkept rel hrel
  refine ⟨rel, rel', hrel, hrel', hrows.imp fun row row' hrow column hhas hhas' => ?_⟩
  refine hrow column fun hmem => ?_
  exact Bool.false_ne_true ((hcolumns column hmem hhas rel' hrel').symm.trans hhas')

/-- Each one on the right has one on the left. -/
theorem exists_of_forall₂ {α β : Type*} {r : α → β → Prop} {l : List α} {l' : List β}
    (h : List.Forall₂ r l l') {b : β} (hb : b ∈ l') : ∃ a ∈ l, r a b := by
  induction h with
  | nil => cases hb
  | cons hab _ ih =>
      rcases List.mem_cons.mp hb with rfl | hb
      · exact ⟨_, List.mem_cons_self, hab⟩
      · obtain ⟨a, ha, hr⟩ := ih hb
        exact ⟨a, List.mem_cons_of_mem _ ha, hr⟩

/-- Nobody has a value in a column that is added, and not changed after. -/
theorem null_of_added {now : ν} {col : Column ν} (hdefault : col.server_default = none)
    (h : ∀ op ∈ ops, Changes dropped columns op) (hcolumn : (table, col.name) ∉ columns)
    (hkept : table ∉ dropped) (hrun : run (add_column now table col :: ops) db = .ok db') :
    ∀ rel', db' table = some rel' → ∀ row ∈ rel'.rows, row col.name = none := by
  intro rel' hrel' row' hrow'
  rw [run] at hrun
  cases hadd : add_column now table col db with
  | error e =>
      rw [hadd] at hrun
      cases hrun
  | ok mid =>
      rw [hadd] at hrun
      obtain ⟨old, new, -, hchange, rfl⟩ := alter_eq_ok hadd
      obtain ⟨rel, hrel, hrows⟩ :=
        run_changes h _ db' hrun table hkept new (Function.update_self _ _ _)
      obtain rfl := Option.some.inj (hrel.symm.trans hrel')
      -- the row was given its value before the others
      obtain ⟨row, hrow, hsame⟩ : ∃ row ∈ new.rows, ∀ column, (table, column) ∉ columns →
          row' column = row column := exists_of_forall₂ hrows hrow'
      rw [hsame col.name hcolumn]
      dsimp only at hchange
      split at hchange
      · cases hchange
      · split at hchange
        · cases hchange
          obtain ⟨first, -, rfl⟩ := List.mem_map.mp hrow
          rw [Function.update_self, hdefault]
          rfl
        · cases hchange

end Changes

end Ddl
