/-
# `Dass.OverlappingUpdates` — two updates of one job at a time

Each request loads the row, derives what it writes from what it has loaded, and sends the
columns that differ from that.  If the other commits in between, the row becomes a mixture:
the columns of both, and a runtime spec made of an action that was never in the table
(`mixed_row`).

The later request leaves what it would leave on its own after the other (`AsAfter`) if every
column it names is sent or holds its value already, and its action, completed from the
loaded row and from the committed one, builds the same spec, or on each what the row holds.
It leaves what the other would leave on its own after it (`AsBefore`) if no column that both
name is sent with another value, and the other's action builds the same spec with what this
one writes as without.  Where each commit is of one kind, and each
rejection as it would be before or after the other, the two have been executed one after
the other.
-/
import Dass.UpdateSteps
import Dass.RuntimeSpec
import Dass.Lib.Run

namespace Dass

open Lts Orm

/-! ## Columns -/

/-- The field is in the payload. -/
def Field.given {α : Type} : Field α → Prop
  | .unset => False
  | .null | .value _ => True

/-- The payload sets the column.  The JSON columns are looked at apart. -/
def JobUpdate.names (data : JobUpdate) : Column → Prop
  | .name => data.name.given
  | .job_type | .cron_expression | .next_fire_at => data.cron_expression.given
  | .action_type => data.action_type.given
  | .enabled => data.enabled.given
  | .concurrency_policy => data.concurrency_policy.given
  | .max_retries => data.max_retries.given
  | .action_config | .runtime_spec | .created_at | .updated_at => False

/-- The column holds the value, by `==`. -/
def Held : Option Json → Option Json → Prop
  | some value, some held => value.same held = true
  | none, none => True
  | some _, none | none, some _ => False

instance (value held : Option Json) : Decidable (Held value held) :=
  match value, held with
  | some value, some held => inferInstanceAs (Decidable (value.same held = true))
  | none, none => isTrue trivial
  | some _, none | none, some _ => isFalse id

/-- Of two rows and the spec that is built from each: each row holds its own; or neither does,
and the two are stored as the same; or the second one does, as what the first is stored as. -/
def SpecsAgree (column : JSONBCompat) (held held' spec spec' : Option Json) : Prop :=
  Held spec held ∧ Held spec' held' ∨
  ¬ Held spec held ∧ ¬ Held spec' held' ∧ spec.map column.stored = spec'.map column.stored ∨
  ¬ Held spec held ∧ Held spec' held' ∧ held' = spec.map column.stored

/-- The request, which has made `job` of `loaded`, leaves in `row` what it would leave if it
loaded `row` now. -/
structure AsAfter (env : Env) (column : JSONBCompat) (data : JobUpdate) (loaded job row : Job) :
    Prop where
  columns : ∀ c, data.names c → job.val c ≠ loaded.val c ∨ row.val c = job.val c
  action_config : ∀ value, data.action_config = .value value →
    value.same loaded.action_config = value.same row.action_config ∨
      row.action_config = column.stored value
  runtime_spec : ∃ spec spec', updated_runtime_spec env loaded data = .ok spec ∧
    updated_runtime_spec env row data = .ok spec' ∧
    SpecsAgree column loaded.runtime_spec row.runtime_spec spec spec'

/-- The request leaves in `row`, which the `other` payload has made of `loaded`, what that
would leave if it came after the request. -/
structure AsBefore (env : Env) (column : JSONBCompat) (data other : JobUpdate)
    (loaded job row : Job) : Prop where
  columns : ∀ c, data.names c → other.names c → job.val c = loaded.val c ∨ row.val c = job.val c
  action_config : ∀ mine theirs, data.action_config = .value mine →
    other.action_config = .value theirs →
    mine.same loaded.action_config = true ∨ theirs.same (column.stored mine) = true
  runtime_spec : ∃ spec theirs theirs', updated_runtime_spec env loaded data = .ok spec ∧
    updated_runtime_spec env loaded other = .ok theirs ∧
    updated_runtime_spec env (job.assigned column loaded) other = .ok theirs' ∧
    if Held spec loaded.runtime_spec then
      Held theirs loaded.runtime_spec ∧ Held theirs' loaded.runtime_spec ∨
      ¬ Held theirs loaded.runtime_spec ∧ ¬ Held theirs' loaded.runtime_spec ∧
        theirs.map column.stored = theirs'.map column.stored
    else Held theirs' (spec.map column.stored)

/-! ## The same payload on two rows -/

section Rows

variable {env : Env} {column : JSONBCompat} {now : Int} {data other : JobUpdate}
  {loaded job row job' : Job}

/-- A field that two columns have taken: it has put its value into both, or left both. -/
theorem Field.column_cases {α : Type} {field : Field α} {old old' v v' : α}
    (h : field.column old = .ok v) (h' : field.column old' = .ok v') :
    (∃ value, field = .value value ∧ v = value ∧ v' = value) ∨ v = old ∧ v' = old' := by
  cases field with
  | unset => exact .inr ⟨(Except.ok.inj h).symm, (Except.ok.inj h').symm⟩
  | null => cases h
  | value value => exact .inl ⟨value, rfl, (Except.ok.inj h).symm, (Except.ok.inj h').symm⟩

theorem Field.given_cases {α : Type} {field : Field α} {old old' v v' : α}
    (h : field.column old = .ok v) (h' : field.column old' = .ok v') :
    field.given ∧ v' = v ∨ v = old ∧ v' = old' := by
  rcases Field.column_cases h h' with ⟨value, rfl, rfl, rfl⟩ | hkept
  · exact .inl ⟨trivial, rfl⟩
  · exact .inr hkept

theorem Field.column_on {α : Type} {field : Field α} {old v : α} (h : field.column old = .ok v)
    (old' : α) : ∃ v', field.column old' = .ok v' := by
  cases field with
  | unset => exact ⟨old', rfl⟩
  | null => cases h
  | value new => exact ⟨new, rfl⟩

theorem updated_schedule_cases {cron : Field String} {s s' : JobType × Option String × Option Int}
    (h : updated_schedule env now loaded cron = .ok s)
    (h' : updated_schedule env now row cron = .ok s') :
    cron.given ∧ s' = s ∨
      s = (loaded.job_type, loaded.cron_expression, loaded.next_fire_at) ∧
        s' = (row.job_type, row.cron_expression, row.next_fire_at) := by
  cases cron with
  | unset =>
      cases h
      cases h'
      exact .inr ⟨rfl, rfl⟩
  | null | value =>
      have hsame : Except.ok s' = Except.ok s := h'.symm.trans h
      exact .inl ⟨trivial, Except.ok.inj hsame⟩

theorem updated_schedule_on {cron : Field String} {s : JobType × Option String × Option Int}
    (h : updated_schedule env now loaded cron = .ok s) (row : Job) :
    ∃ s', updated_schedule env now row cron = .ok s' := by
  cases cron with
  | unset => exact ⟨_, rfl⟩
  | null | value => exact ⟨s, h⟩

/-- A payload that one row has taken is taken by any whose action it goes with. -/
theorem update_job_row_on (h : UpdatesRow env now loaded data job) {spec : Option Json}
    (hspec : updated_runtime_spec env row data = .ok spec) :
    ∃ job', update_job_row env now row data = .ok job' := by
  obtain ⟨⟨_, _, _⟩, hschedule⟩ := updated_schedule_on h.schedule row
  obtain ⟨_, hname⟩ := Field.column_on h.name row.name
  obtain ⟨_, htype⟩ := Field.column_on h.action_type row.action_type
  obtain ⟨_, hconfig⟩ := Field.column_on h.action_config row.action_config
  obtain ⟨_, henabled⟩ := Field.column_on h.enabled row.enabled
  obtain ⟨_, hpolicy⟩ := Field.column_on h.concurrency_policy row.concurrency_policy
  obtain ⟨_, hretries⟩ := Field.column_on h.max_retries row.max_retries
  simp only [update_job_row, bind, Except.bind, pure, Except.pure, hschedule, hspec, hname, htype,
    hconfig, henabled, hpolicy, hretries]
  exact ⟨_, rfl⟩

/-- A column of two rows that have taken the payload: it says what is in it, or says
nothing. -/
theorem UpdatesRow.column_cases (h : UpdatesRow env now loaded data job)
    (h' : UpdatesRow env now row data job') {c : Column} (hconfig : c ≠ .action_config)
    (hspec : c ≠ .runtime_spec) (hstamp : c ≠ .updated_at) :
    data.names c ∧ job'.val c = job.val c ∨
      job.val c = loaded.val c ∧ job'.val c = row.val c := by
  have hschedule := updated_schedule_cases h.schedule h'.schedule
  simp only [Prod.mk.injEq] at hschedule
  cases c with
  | name => exact Field.given_cases h.name h'.name
  | action_type => exact Field.given_cases h.action_type h'.action_type
  | enabled => exact Field.given_cases h.enabled h'.enabled
  | concurrency_policy => exact Field.given_cases h.concurrency_policy h'.concurrency_policy
  | max_retries => exact Field.given_cases h.max_retries h'.max_retries
  | job_type => exact hschedule.imp (fun h => ⟨h.1, h.2.1⟩) fun h => ⟨h.1.1, h.2.1⟩
  | cron_expression => exact hschedule.imp (fun h => ⟨h.1, h.2.2.1⟩) fun h => ⟨h.1.2.1, h.2.2.1⟩
  | next_fire_at => exact hschedule.imp (fun h => ⟨h.1, h.2.2.2⟩) fun h => ⟨h.1.2.2, h.2.2.2⟩
  | created_at => exact .inr ⟨h.created_at, h'.created_at⟩
  | action_config => exact absurd rfl hconfig
  | runtime_spec => exact absurd rfl hspec
  | updated_at => exact absurd rfl hstamp

theorem JSONBCompat.assigned_self (value : Json) : column.assigned value value = value :=
  if_pos (Json.same_refl value)

/-- What a flush leaves of a value, whatever is stored by then. -/
theorem JSONBCompat.emit_assigned_eq {loaded value stored : Json} :
    emit loaded (column.assigned loaded value) stored =
      if value.same loaded then stored else column.stored value := by
  unfold JSONBCompat.assigned
  split
  · exact emit_clean loaded stored
  · next hdiffers =>
      refine emit_dirty fun heq => hdiffers ?_
      rw [← heq]
      exact column.same_stored value

theorem held_refl (value : Option Json) : Held value value := by
  cases value with
  | none => trivial
  | some value => exact Json.same_refl value

/-- A column holds what has been stored in it. -/
theorem held_stored (value : Option Json) : Held value (value.map column.stored) := by
  cases value with
  | none => trivial
  | some value => exact column.same_stored value

/-- What an assignment makes of a column that may be null. -/
theorem JSONBCompat.assigned?_eq (held value : Option Json) :
    column.assigned? held value = if Held value held then held else value.map column.stored := by
  cases held with
  | none => cases value <;> rfl
  | some held =>
      cases value with
      | none => rfl
      | some value =>
          show some (if value.same held = true then held else column.stored value)
            = if value.same held = true then some held else some (column.stored value)
          split <;> rfl

/-- What a flush leaves of it, whatever is stored by then. -/
theorem JSONBCompat.emit_assigned?_eq (held value stored : Option Json) :
    emit held (column.assigned? held value) stored =
      if Held value held then stored else value.map column.stored := by
  rw [column.assigned?_eq]
  split
  · exact emit_clean held stored
  · next hnot =>
      refine emit_dirty fun heq => hnot ?_
      rw [← heq]
      exact held_stored value

/-- **The spec that is sent is the one that would be derived now** exactly where the specs of
the two rows agree. -/
theorem specsAgree_iff {held held' spec spec' : Option Json} :
    SpecsAgree column held held' spec spec' ↔
      emit held (column.assigned? held spec) held' = column.assigned? held' spec' := by
  rw [column.emit_assigned?_eq, column.assigned?_eq]
  unfold SpecsAgree
  by_cases hspec : Held spec held <;> by_cases hspec' : Held spec' held'
  · simp [hspec, hspec']
  · -- a column that keeps what it has does not hold another spec
    simp only [hspec, hspec', and_false, not_true_eq_false, false_and, or_false, if_true,
      if_false, false_iff]
    intro heq
    rw [heq] at hspec'
    exact hspec' (held_stored spec')
  · simp only [hspec, hspec', false_and, not_false_eq_true, not_true_eq_false, and_true,
      true_and, false_or, if_true, if_false]
    exact eq_comm
  · simp [hspec, hspec']

/-- **The row as after.**  What is sent leaves, column by column, what the payload leaves on
a row loaded now. -/
theorem AsAfter.val (hafter : AsAfter env column data loaded job row)
    (h : UpdatesRow env now loaded data job) (h' : UpdatesRow env now row data job') {c : Column}
    (hstamp : c ≠ .updated_at) :
    emit (loaded.val c) ((job.assigned column loaded).val c) (row.val c)
      = (job'.assigned column row).val c := by
  by_cases hconfig : c = .action_config
  · subst hconfig
    show emit loaded.action_config (column.assigned loaded.action_config job.action_config)
      row.action_config = column.assigned row.action_config job'.action_config
    rcases Field.column_cases h.action_config h'.action_config with
      ⟨value, hfield, hjob, hjob'⟩ | ⟨hkept, hkept'⟩
    · rw [hjob, hjob', JSONBCompat.emit_assigned_eq]
      unfold JSONBCompat.assigned
      rcases hafter.action_config value hfield with heq | hstored
      · rw [heq]
      · have hsame : value.same row.action_config = true := by
          rw [hstored]
          exact column.same_stored value
        rw [if_pos hsame]
        split
        · rfl
        · exact hstored.symm
    · rw [hkept, hkept', column.assigned_self, column.assigned_self, emit_clean]
  by_cases hspec : c = .runtime_spec
  · subst hspec
    obtain ⟨spec, spec', hbuild, hbuild', hagree⟩ := hafter.runtime_spec
    rw [h.runtime_spec] at hbuild
    rw [h'.runtime_spec] at hbuild'
    cases hbuild
    cases hbuild'
    exact specsAgree_iff.mp hagree
  have hassigned : ∀ a b : Job, (a.assigned column b).val c = a.val c := by
    intro a b
    cases c <;> first | rfl | exact absurd rfl hconfig | exact absurd rfl hspec
  rw [hassigned, hassigned]
  rcases h.column_cases h' hconfig hspec hstamp with ⟨hnames, hsame⟩ | ⟨hkept, hkept'⟩
  · rw [hsame]
    exact emit_eq_assigned.mpr (hafter.columns c hnames)
  · rw [hkept, hkept', emit_clean]

/-! ### Rows that agree -/

/-- The rows are the same but for `updated_at`. -/
structure Job.Agree (a b : Job) : Prop where
  id : a.id = b.id
  val : ∀ c, c ≠ .updated_at → a.val c = b.val c

theorem Job.Agree.symm {a b : Job} (h : a.Agree b) : b.Agree a :=
  ⟨h.id.symm, fun c hc => (h.val c hc).symm⟩

theorem Job.Agree.trans {a b c : Job} (hab : a.Agree b) (hbc : b.Agree c) : a.Agree c :=
  ⟨hab.id.trans hbc.id, fun col hc => (hab.val col hc).trans (hbc.val col hc)⟩

theorem Job.Agree.eq {a b : Job} (h : a.Agree b) (hstamp : a.updated_at = b.updated_at) : a = b := by
  obtain ⟨hid, hval⟩ := h
  have hname := hval .name nofun
  have hjob_type := hval .job_type nofun
  have hcron := hval .cron_expression nofun
  have htype := hval .action_type nofun
  have hconfig := hval .action_config nofun
  have hspec := hval .runtime_spec nofun
  have henabled := hval .enabled nofun
  have hpolicy := hval .concurrency_policy nofun
  have hretries := hval .max_retries nofun
  have hfire := hval .next_fire_at nofun
  have hcreated := hval .created_at nofun
  cases a
  cases b
  simp only [Job.val] at *
  simp_all

/-- A row that was flushed onto what was loaded is what was assigned. -/
theorem Job.agree_flush {now : Int} {assigned : Job} (hid : assigned.id = row.id) :
    (Job.flush now row assigned row).Agree assigned := by
  refine ⟨?_, fun c hc => ?_⟩
  · rw [Job.flush_id]
    exact hid.symm
  · rw [Job.val_flush _ _ _ _ hc, emit_loaded]

theorem Job.flush_updated_at (now : Int) {assigned : Job}
    (h : assigned.updated_at = row.updated_at) :
    (Job.flush now row assigned row).updated_at =
      if assigned = row then row.updated_at else now := by
  unfold Job.flush
  by_cases hclean : assigned = row
  · rw [if_pos hclean, if_pos hclean]
  · rw [if_neg hclean, if_neg hclean]
    exact if_pos h

theorem updated_runtime_spec_agree {a b : Job} (h : a.Agree b) :
    updated_runtime_spec env a data = updated_runtime_spec env b data := by
  have htype : a.action_type = b.action_type := h.val .action_type nofun
  have hconfig : a.action_config = b.action_config := h.val .action_config nofun
  have hspec : a.runtime_spec = b.runtime_spec := h.val .runtime_spec nofun
  unfold updated_runtime_spec
  rw [htype, hconfig, hspec]

/-- The stamp of the row does not count. -/
theorem AsAfter.agree {row' : Job} (hafter : AsAfter env column data loaded job row)
    (h : row.Agree row') : AsAfter env column data loaded job row' := by
  have hconfig : row.action_config = row'.action_config := h.val .action_config nofun
  have hspec : row.runtime_spec = row'.runtime_spec := h.val .runtime_spec nofun
  refine ⟨fun c hnames => ?_, ?_, ?_⟩
  · have hc : c ≠ .updated_at := by
      rintro rfl
      exact hnames
    rw [← h.val c hc]
    exact hafter.columns c hnames
  · rw [← hconfig]
    exact hafter.action_config
  · rw [← updated_runtime_spec_agree h, ← hspec]
    exact hafter.runtime_spec

/-- **The spec as before**: where the request sends its own, the other one's is the same by
then; and where it sends none, the other one's is not changed by what it has sent. -/
theorem AsBefore.spec {second : Job} (hbefore : AsBefore env column data other loaded job row)
    (h : updated_runtime_spec env loaded data = .ok job.runtime_spec)
    (hother : updated_runtime_spec env loaded other = .ok second.runtime_spec)
    {later : Option Json}
    (hlater : updated_runtime_spec env (job.assigned column loaded) other = .ok later) :
    emit loaded.runtime_spec (column.assigned? loaded.runtime_spec job.runtime_spec)
        (column.assigned? loaded.runtime_spec second.runtime_spec)
      = column.assigned? (column.assigned? loaded.runtime_spec job.runtime_spec) later := by
  obtain ⟨spec, theirs, theirs', hspec, htheirs, htheirs', hagree⟩ := hbefore.runtime_spec
  rw [h] at hspec
  rw [hother] at htheirs
  rw [hlater] at htheirs'
  cases hspec
  cases htheirs
  cases htheirs'
  rw [column.emit_assigned?_eq]
  split at hagree
  · next hheld =>
      have hkept : column.assigned? loaded.runtime_spec job.runtime_spec = loaded.runtime_spec := by
        rw [column.assigned?_eq, if_pos hheld]
      rw [if_pos hheld, hkept, column.assigned?_eq, column.assigned?_eq]
      rcases hagree with ⟨hfirst, hlast⟩ | ⟨hfirst, hlast, hsame⟩
      · rw [if_pos hfirst, if_pos hlast]
      · rw [if_neg hfirst, if_neg hlast, hsame]
  · next hsent =>
      have hnew : column.assigned? loaded.runtime_spec job.runtime_spec
          = job.runtime_spec.map column.stored := by
        rw [column.assigned?_eq, if_neg hsent]
      rw [if_neg hsent, hnew, column.assigned?_eq, if_pos hagree]

/-- **The row as before.**  What is sent leaves what the other payload leaves on a row that
has taken this one. -/
theorem AsBefore.val {now' : Int} {first second later : Job}
    (hbefore : AsBefore env column data other loaded job row)
    (h : UpdatesRow env now loaded data job) (hother : UpdatesRow env now' loaded other second)
    (hrow : row.Agree (second.assigned column loaded))
    (hfirst : first.Agree (job.assigned column loaded))
    (hlater : UpdatesRow env now' first other later) {c : Column} (hstamp : c ≠ .updated_at) :
    emit (loaded.val c) ((job.assigned column loaded).val c) (row.val c)
      = (later.assigned column first).val c := by
  by_cases hconfig : c = .action_config
  · subst hconfig
    have hrowc : row.action_config = column.assigned loaded.action_config second.action_config :=
      hrow.val .action_config nofun
    have hfirstc : first.action_config = column.assigned loaded.action_config job.action_config :=
      hfirst.val .action_config nofun
    show emit loaded.action_config (column.assigned loaded.action_config job.action_config)
      row.action_config = column.assigned first.action_config later.action_config
    rw [hrowc]
    rcases Field.column_cases hother.action_config hlater.action_config with
      ⟨theirs, htheirs, hsecond, hlast⟩ | ⟨hkept, hkept'⟩
    · rw [hsecond, hlast, hfirstc, JSONBCompat.emit_assigned_eq]
      rcases Field.column_cases h.action_config h.action_config with
        ⟨mine, hmine, hjob, _⟩ | ⟨hkept, _⟩
      · rw [hjob]
        rcases hbefore.action_config mine theirs hmine htheirs with hkept | hover
        · rw [if_pos hkept]
          unfold JSONBCompat.assigned
          rw [if_pos hkept]
        · unfold JSONBCompat.assigned
          -- by `hover` the other value is not written over this one
          split <;> rfl
      · rw [hkept, if_pos (Json.same_refl _), column.assigned_self]
    · rw [hkept, hkept', column.assigned_self, column.assigned_self, emit_loaded, hfirstc]
  by_cases hspec : c = .runtime_spec
  · subst hspec
    have hfirsts : first.runtime_spec = column.assigned? loaded.runtime_spec job.runtime_spec :=
      hfirst.val .runtime_spec nofun
    have hrows : row.runtime_spec = column.assigned? loaded.runtime_spec second.runtime_spec :=
      hrow.val .runtime_spec nofun
    have hbuild := hlater.runtime_spec
    rw [updated_runtime_spec_agree hfirst] at hbuild
    show emit loaded.runtime_spec (column.assigned? loaded.runtime_spec job.runtime_spec)
      row.runtime_spec = column.assigned? first.runtime_spec later.runtime_spec
    rw [hrows, hfirsts]
    exact hbefore.spec h.runtime_spec hother.runtime_spec hbuild
  have hassigned : ∀ a b : Job, (a.assigned column b).val c = a.val c := by
    intro a b
    cases c <;> first | rfl | exact absurd rfl hconfig | exact absurd rfl hspec
  have hrowc := hrow.val c hstamp
  have hfirstc := hfirst.val c hstamp
  rw [hassigned] at hrowc hfirstc ⊢
  rw [hassigned]
  rcases hother.column_cases hlater hconfig hspec hstamp with ⟨hnames, hsame⟩ | ⟨hkept, hkept'⟩
  · rw [hsame, ← hrowc]
    rcases h.column_cases h hconfig hspec hstamp with ⟨hmine, _⟩ | ⟨hkept, _⟩
    · rcases hbefore.columns c hmine hnames with hkept | hagrees
      · rw [hkept, emit_clean]
      · rw [hagrees]
        exact emit_eq_assigned.mpr (.inr rfl)
    · rw [hkept, emit_clean]
  · rw [hrowc, hkept, hkept', hfirstc, emit_loaded]

/-! ### One after the other, on one stamp -/

/-- Two flushes at one instant: the second leaves that instant in `updated_at`, or nothing
has been sent. -/
theorem flush_twice {now : Int} {first last a b : Job}
    (ha : a.updated_at = loaded.updated_at) (hb : b.updated_at = first.updated_at)
    (hfirst : first = Job.flush now loaded a loaded) (hlast : last = Job.flush now first b first) :
    last.updated_at = now ∨ a = loaded ∧ b = first ∧ first = loaded ∧ last = loaded := by
  have hstamp := Job.flush_updated_at now ha
  have hstamp' := Job.flush_updated_at now hb
  rw [← hfirst] at hstamp
  rw [← hlast] at hstamp'
  by_cases hclean' : b = first
  · rw [if_pos hclean'] at hstamp'
    by_cases hclean : a = loaded
    · have hfirst' : first = loaded := by
        rw [hfirst]
        exact if_pos hclean
      have hlast' : last = first := by
        rw [hlast]
        exact if_pos hclean'
      exact .inr ⟨hclean, hclean', hfirst', hlast'.trans hfirst'⟩
    · rw [if_neg hclean] at hstamp
      exact .inl (hstamp'.trans hstamp)
  · rw [if_neg hclean'] at hstamp'
    exact .inl hstamp'

/-- A row that agrees with what two flushes leave is that row, if they are made at the
instant it is stamped with. -/
theorem eq_of_order {mixed first last a b : Job} (hagree : mixed.Agree b)
    (hid : b.id = first.id) (ha : a.updated_at = loaded.updated_at)
    (hb : b.updated_at = first.updated_at)
    (hfirst : first = Job.flush mixed.updated_at loaded a loaded)
    (hlast : last = Job.flush mixed.updated_at first b first)
    (hclean : a = loaded → b = first → first = loaded → mixed = loaded) : last = mixed := by
  have hlast' : last.Agree b := by
    rw [hlast]
    exact Job.agree_flush hid
  rcases flush_twice ha hb hfirst hlast with hstamp | ⟨h₁, h₂, h₃, h₄⟩
  · exact (hlast'.trans hagree.symm).eq hstamp
  · rw [h₄, hclean h₁ h₂ h₃]

end Rows

/-! ## A late request -/

section Late

variable {env : Env} {column : JSONBCompat} {id : JobId} {u v : UpdateRequest}
  {db db₁ db₂ : JobTables} {row loaded job second last : Job} {a : Assigned}

/-- A request is checked against the same dependencies in tables that differ in the row. -/
theorem cyclic_beside (h : Beside id db.jobs db₁.jobs)
    (hdeps : db₁.job_dependencies = db.job_dependencies) :
    db₁.Cyclic id u (db₁.assigned id u) ↔ db.Cyclic id u (db.assigned id u) := by
  rw [h.assigned hdeps]
  unfold JobTables.Cyclic
  rw [hdeps]

/-- The row that a request has committed has a free name. -/
theorem Commits.name_free (h : Commits env column id v db loaded second db₁)
    (hname : name_taken db.jobs loaded = false) :
    name_taken db.jobs (Job.flush v.stamp loaded (second.assigned column loaded) loaded) = false := by
  rcases h.free with hclean | hfree
  · rw [hclean, Job.flush, if_pos rfl]
    exact hname
  · rw [name_taken_flush (update_job_row_stamp h.assigned).1]
    exact hfree

/-- So has the row that a late request commits after that. -/
theorem Commits.name_free_late (h : Commits env column id v db loaded second db₁)
    (hname : name_taken db.jobs loaded = false) (ha : db₁.Admits a)
    (hwrite : db₁.write column u loaded job a = some db₂)
    (hrow : db₁.jobs.get id = some row) :
    db₂.jobs.get id = some (Job.flush u.stamp loaded (job.assigned column loaded) row) ∧
      name_taken db.jobs (Job.flush u.stamp loaded (job.assigned column loaded) row) = false := by
  have hid : loaded.id = id := Table.key_of_get h.get
  have hrowid : row.id = id := Table.key_of_get hrow
  obtain ⟨hleaves, hsome⟩ := write_some column u job ha hrow hid
  obtain ⟨hget, _, _⟩ := hleaves db₂ hwrite
  refine ⟨hget, ?_⟩
  rcases hsome.mp (by rw [hwrite]; rfl) with hclean | hfree
  · rw [hclean, Job.flush, if_pos rfl]
    rw [h.get'] at hrow
    cases hrow
    exact h.name_free hname
  · rw [← h.beside.taken _ (by rw [Job.flush_id, hrowid])]
    exact hfree

/-- A late request whose name is taken would have found it taken before. -/
theorem Commits.name_taken_late (h : Commits env column id v db loaded second db₁)
    (hname : name_taken db.jobs loaded = false)
    (hjob : update_job_row env u.now loaded u.data = .ok job) (ha : db₁.Admits a)
    (hwrite : db₁.write column u loaded job a = none) :
    update_alone env column id u db = (db, .done false) := by
  have hid : loaded.id = id := Table.key_of_get h.get
  have hjobid : job.id = loaded.id := (update_job_row_stamp hjob).1
  obtain ⟨_, hsome⟩ := write_some column u job ha h.get' hid
  rw [hwrite] at hsome
  refine update_alone_refused fun loaded' job' hget hjob' _ hfree => ?_
  cases h.get.symm.trans hget
  cases hjob.symm.trans hjob'
  refine absurd (hsome.mpr ?_) nofun
  rcases hfree with hclean | hfree
  · exact .inl hclean
  · refine .inr ?_
    rw [h.beside.taken _ (by rw [Job.flush_id, Job.flush_id, hid])]
    by_cases hsent : job.name = loaded.name
    · refine (name_taken_congr ?_ ?_).trans (h.name_free hname)
      · rw [Job.flush_id]
      · have hval := Job.val_flush u.stamp loaded (job.assigned column loaded)
          (Job.flush v.stamp loaded (second.assigned column loaded) loaded) (c := .name) nofun
        refine hval.trans ?_
        have hclean : (job.assigned column loaded).val .name = loaded.val .name := hsent
        rw [hclean, emit_clean]
        rfl
    · refine (name_taken_congr ?_ ?_).trans hfree
      · rw [Job.flush_id, Job.flush_id, hjobid]
      · have hval := Job.val_flush u.stamp loaded (job.assigned column loaded)
          (Job.flush v.stamp loaded (second.assigned column loaded) loaded) (c := .name) nofun
        exact hval.trans (emit_dirty hsent)

end Late

/-! ## Two requests -/

/-- The tables, and how far the two requests have come. -/
structure UpdatePair where
  tables : JobTables
  pc : Bool → UpdatePc

namespace UpdatePair

section System

variable (env : Env) (column : JSONBCompat) (id : JobId) (u : Bool → UpdateRequest)

/-- The other request has sent its `UPDATE` of the row, which this one is about to send its
own of: it waits for the lock. -/
def Waits (s : UpdatePair) (r : Bool) : Prop :=
  match s.pc r, s.pc !r with
  | .modified row job _, .flushed row' job' _ | .modified row job _, .checked row' job' _ =>
      job.assigned column row ≠ row ∧ job'.assigned column row' ≠ row'
  | _, _ => False

/-- One of the two takes its next step. -/
inductive Step : UpdatePair → Bool → UpdatePair → Prop
  | step {s : UpdatePair} {r : Bool} : ¬ s.Waits column r →
      Step s r
        { tables := (update_step env column id (u r) s.tables (s.pc r)).1
          pc := Function.update s.pc r (update_step env column id (u r) s.tables (s.pc r)).2 }

def start (db : JobTables) : UpdatePair := ⟨db, fun _ => .start⟩

/-- The two have come to what one leaves after the other, each alone, whenever that is: the
row, and which of them succeeds. -/
def Serial (db : JobTables) (s : UpdatePair) : Prop :=
  ∃ (first : Bool) (stamp : Bool → Int),
    let alone r db := update_alone env column id { u r with stamp := stamp r } db
    s.pc first = (alone first db).2 ∧ s.pc (!first) = (alone (!first) (alone first db).1).2 ∧
      s.tables.jobs.get id = (alone (!first) (alone first db).1).1.jobs.get id

/-- The request would be rejected on these tables: its dependencies close a cycle, or the
row's action and the payload's do not go together. -/
def Rejects (db : JobTables) (u : UpdateRequest) : Prop :=
  db.Cyclic id u (db.assigned id u) ∨
    ∀ row, db.jobs.get id = some row → ∀ spec, updated_runtime_spec env row u.data ≠ .ok spec

/-- The request, which has loaded `loaded` from `db` and made `job` of it, commits what it
would commit if it came after the other, or before. -/
def CommitsInOrder (db : JobTables) (s : UpdatePair) (r : Bool) (loaded job row : Job) : Prop :=
  AsAfter env column (u r).data loaded job row ∧
      ¬ s.tables.Cyclic id (u r) (s.tables.assigned id (u r)) ∨
  AsBefore env column (u r).data (u !r).data loaded job row ∧
      ¬ db.Cyclic id (u r) (db.assigned id (u r)) ∧
      let tables : JobTables := ⟨db.jobs, (db.assigned id (u r)).apply db.job_dependencies⟩
      ¬ tables.Cyclic id (u !r) (tables.assigned id (u !r))

/-- A request that ends when the other has committed is rejected for its dependencies only
if it would be after the other or before, and commits what it would commit after the other
or before. -/
def InOrder (db : JobTables) (s : UpdatePair) (r : Bool) : Prop :=
  s.pc (!r) = .done true →
    let rejected := Rejects env id s.tables (u r) ∨ Rejects env id db (u r)
    match s.pc r with
    | .modified _ _ a => ¬ s.tables.Admits a → rejected
    | .flushed _ _ a => s.tables.Cyclic id (u r) a → rejected
    | .checked loaded job a =>
        (¬ s.tables.Admits a → rejected) ∧
        (s.tables.Admits a → ∀ row, s.tables.jobs.get id = some row →
          CommitsInOrder env column id u db s r loaded job row)
    | .start | .loaded _ | .done _ => True

end System

/-! ### Serial ends -/

section Serial

variable {env : Env} {column : JSONBCompat} {id : JobId} {db db₁ db₂ : JobTables}
  {row loaded job second : Job} {a : Assigned}

theorem Rejects.alone {u : UpdateRequest} (h : Rejects env id db u) :
    update_alone env column id u db = (db, .done false) := by
  refine update_alone_refused fun row job hget hrow hacyclic => ?_
  rcases h with hcyclic | hspec
  · exact absurd hcyclic hacyclic
  · exact absurd (update_job_row_ok hrow).runtime_spec (hspec row hget _)

/-- One request, then the other, each alone, leave `db₂`'s row. -/
def Orders (env : Env) (column : JSONBCompat) (id : JobId) (first second : UpdateRequest)
    (db db₂ : JobTables) : Prop :=
  ∃ stamp db₁ db₂', update_alone env column id { first with stamp := stamp } db = (db₁, .done true) ∧
    update_alone env column id { second with stamp := stamp } db₁ = (db₂', .done true) ∧
    db₂.jobs.get id = db₂'.jobs.get id

variable {u v : UpdateRequest}

/-- The row a late request commits, if it agrees with what the second of two requests makes of
the row of the first: they leave it, on the stamp it has. -/
theorem orders_of {mixed first last : Job} {dbX : JobTables}
    (halone : update_alone env column id { v with stamp := mixed.updated_at } db = (dbX, .done true))
    (hX : Commits env column id { v with stamp := mixed.updated_at } db loaded second dbX)
    (hfirst : first = Job.flush mixed.updated_at loaded (second.assigned column loaded) loaded)
    (hlast : update_job_row env u.now first u.data = .ok last)
    (hacyclic : ¬ dbX.Cyclic id u (dbX.assigned id u))
    (hmixed : db₂.jobs.get id = some mixed) (hfree : name_taken db.jobs mixed = false)
    (hagree : mixed.Agree (last.assigned column first))
    (hclean : second.assigned column loaded = loaded → last.assigned column first = first →
      first = loaded → mixed = loaded) : Orders env column id v u db db₂ := by
  have hsecond := update_job_row_ok hX.assigned
  have hsecondstamp : (second.assigned column loaded).updated_at = loaded.updated_at :=
    hsecond.updated_at
  have hlast' := update_job_row_ok hlast
  have hlastid : (last.assigned column first).id = first.id := hlast'.id
  have hlaststamp : (last.assigned column first).updated_at = first.updated_at :=
    hlast'.updated_at
  have hget : dbX.jobs.get id = some first := by
    rw [hfirst]
    exact hX.get'
  have hlastfree : name_taken dbX.jobs last = false := by
    rw [← hfree, hX.beside.taken last (hlast'.id.trans (Table.key_of_get hget))]
    exact name_taken_congr hagree.id.symm (hagree.val .name nofun).symm
  obtain ⟨db₂', halone', h₂⟩ := commits_of column (u := { u with stamp := mixed.updated_at }) hget
    hlast hacyclic (.inr hlastfree)
  refine ⟨mixed.updated_at, dbX, db₂', halone, halone', ?_⟩
  rw [hmixed, h₂.get', Option.some.injEq]
  exact (eq_of_order hagree hlastid hsecondstamp hlaststamp hfirst rfl hclean).symm

/-- **A late request in the order of the commits.** -/
theorem orders_after (h : Commits env column id v db loaded second db₁)
    (hname : name_taken db.jobs loaded = false)
    (hjob : update_job_row env u.now loaded u.data = .ok job) (ha : db₁.Admits a)
    (hwrite : db₁.write column u loaded job a = some db₂) (hrow : db₁.jobs.get id = some row)
    (hafter : AsAfter env column u.data loaded job row)
    (hacyclic : ¬ db₁.Cyclic id u (db₁.assigned id u)) : Orders env column id v u db db₂ := by
  obtain ⟨hmixed, hfree⟩ := h.name_free_late hname ha hwrite hrow
  generalize hF : Job.flush u.stamp loaded (job.assigned column loaded) row = mixed at hmixed hfree
  have hsecondid : (second.assigned column loaded).id = loaded.id :=
    (update_job_row_ok h.assigned).id
  have hrowflush : row = Job.flush v.stamp loaded (second.assigned column loaded) loaded :=
    Option.some.inj (hrow.symm.trans h.get')
  -- the other request leaves the same row, but for the stamp
  obtain ⟨dbX, halone, hX⟩ := commits_of column (u := { v with stamp := mixed.updated_at }) h.get
    h.assigned h.acyclic h.free
  obtain ⟨first, hfirst⟩ : ∃ first, first =
      Job.flush mixed.updated_at loaded (second.assigned column loaded) loaded := ⟨_, rfl⟩
  have hagree : row.Agree first := by
    rw [hrowflush, hfirst]
    exact (Job.agree_flush hsecondid).trans (Job.agree_flush hsecondid).symm
  -- and the late one takes it
  have hafter' := hafter.agree hagree
  obtain ⟨_, _, _, hspec, _⟩ := hafter'.runtime_spec
  obtain ⟨last, hlast⟩ := update_job_row_on (update_job_row_ok hjob) hspec
  have hlast' := update_job_row_ok hlast
  refine orders_of halone hX hfirst hlast (fun hcyclic => hacyclic ?_) hmixed hfree ⟨?_, ?_⟩ ?_
  · exact (cyclic_beside (h.beside.symm_trans hX.beside)
      (hX.dependencies.trans h.dependencies.symm)).mp hcyclic
  · rw [← hF, Job.flush_id, hagree.id]
    exact hlast'.id.symm
  · intro c hc
    rw [← hF, Job.val_flush _ _ _ _ hc, hagree.val c hc]
    exact hafter'.val (update_job_row_ok hjob) hlast' hc
  · -- the other has sent nothing, and this one has nothing to send
    intro hclean hclean' hsame
    subst hsame
    cases hjob.symm.trans hlast
    rw [← hF, hclean', Job.flush, if_pos rfl, hrowflush, hclean, Job.flush, if_pos rfl]

/-- **A late request in the other order.** -/
theorem orders_before (h : Commits env column id v db loaded second db₁)
    (hname : name_taken db.jobs loaded = false)
    (hjob : update_job_row env u.now loaded u.data = .ok job) (ha : db₁.Admits a)
    (hwrite : db₁.write column u loaded job a = some db₂) (hrow : db₁.jobs.get id = some row)
    (hbefore : AsBefore env column u.data v.data loaded job row)
    (hacyclic : ¬ db.Cyclic id u (db.assigned id u))
    {tables : JobTables}
    (htables : tables = ⟨db.jobs, (db.assigned id u).apply db.job_dependencies⟩)
    (hacyclic' : ¬ tables.Cyclic id v (tables.assigned id v)) :
    Orders env column id u v db db₂ := by
  obtain ⟨hmixed, hfree⟩ := h.name_free_late hname ha hwrite hrow
  generalize hF : Job.flush u.stamp loaded (job.assigned column loaded) row = mixed at hmixed hfree
  have hsecond := update_job_row_ok h.assigned
  have hsecondid : (second.assigned column loaded).id = loaded.id := hsecond.id
  have hjob' := update_job_row_ok hjob
  have hjobid : (job.assigned column loaded).id = loaded.id := hjob'.id
  have hrowflush : row = Job.flush v.stamp loaded (second.assigned column loaded) loaded :=
    Option.some.inj (hrow.symm.trans h.get')
  have hrowid : row.id = loaded.id := by rw [hrowflush, Job.flush_id]
  -- the late request finds its name free before the other, too
  have hjobfree : name_taken db.jobs job = false := by
    by_cases hsent : job.name = loaded.name
    · exact (name_taken_congr hjob'.id hsent).trans hname
    · refine (name_taken_congr ?_ ?_).trans hfree
      · rw [← hF, Job.flush_id, hrowid]
        exact hjob'.id
      · have hval := Job.val_flush u.stamp loaded (job.assigned column loaded) row (c := .name) nofun
        rw [hF] at hval
        exact (hval.trans (emit_dirty hsent)).symm
  obtain ⟨dbX, halone, hX⟩ := commits_of column (u := { u with stamp := mixed.updated_at })
    h.get hjob hacyclic (.inr hjobfree)
  obtain ⟨first, hfirst⟩ : ∃ first, first =
      Job.flush mixed.updated_at loaded (job.assigned column loaded) loaded := ⟨_, rfl⟩
  have hfirst' : first.Agree (job.assigned column loaded) := by
    rw [hfirst]
    exact Job.agree_flush hjobid
  -- and the other takes what it leaves
  obtain ⟨_, _, _, _, _, hspec, _⟩ := hbefore.runtime_spec
  rw [← updated_runtime_spec_agree hfirst'] at hspec
  obtain ⟨last, hlast⟩ := update_job_row_on hsecond hspec
  have hlast' := update_job_row_ok hlast
  refine orders_of halone hX hfirst hlast (fun hcyclic => hacyclic' ?_) hmixed hfree ⟨?_, ?_⟩ ?_
  · have hbeside : Beside id tables.jobs dbX.jobs := by
      rw [htables]
      exact hX.beside
    have hdeps : dbX.job_dependencies = tables.job_dependencies := by
      rw [htables]
      exact hX.dependencies
    exact (cyclic_beside hbeside hdeps).mp hcyclic
  · rw [← hF, Job.flush_id, hrowid]
    exact (hlast'.id.trans (hfirst'.id.trans hjobid)).symm
  · intro c hc
    rw [← hF, Job.val_flush _ _ _ _ hc]
    refine hbefore.val hjob' hsecond ?_ hfirst' hlast' hc
    rw [hrowflush]
    exact Job.agree_flush hsecondid
  · -- this one has nothing to send, and the other has sent nothing
    intro hclean hclean' hsame
    subst hsame
    cases h.assigned.symm.trans hlast
    rw [← hF, hclean, Job.flush, if_pos rfl, hrowflush, hclean', Job.flush, if_pos rfl]

end Serial

/-! ### Steps -/

section Steps

variable {env : Env} {column : JSONBCompat} {id : JobId} {u : Bool → UpdateRequest}
  {db : JobTables} {s s' : UpdatePair} {r : Bool}

/-- What has happened so far: nothing is committed; or one request is done and the other has
done its steps so far alone on what that has left; or one has committed, and the other holds
on to what it had loaded before; or it is over. -/
inductive Inv (env : Env) (column : JSONBCompat) (id : JobId) (u : Bool → UpdateRequest)
    (db : JobTables) (s : UpdatePair) : Prop
  | early : s.tables = db → (∀ r, ∃ n, update_steps env column id (u r) db n = (db, s.pc r)) →
      Inv env column id u db s
  | ordered (first : Bool) (db₁ : JobTables) (n : Nat) :
      update_alone env column id (u first) db = (db₁, s.pc first) →
      update_steps env column id (u !first) db₁ n = (s.tables, s.pc !first) →
      Inv env column id u db s
  | late (r : Bool) : update_alone env column id (u !r) db = (s.tables, .done true) →
      s.pc (!r) = .done true → (s.pc r).Under → (s.pc r).From env id (u r) db →
      Inv env column id u db s
  | ended : s.Serial env column id u db → (∀ r, ∃ ok, s.pc r = .done ok) → Inv env column id u db s

theorem inv_start : Inv env column id u db (start db) := .early rfl fun _ => ⟨0, rfl⟩

/-- The spec lemma of a step. -/
theorem step_ok (h : Step env column id u s r s') :
    update_step env column id (u r) s.tables (s.pc r) = (s'.tables, s'.pc r) ∧
      s'.pc (!r) = s.pc !r := by
  cases h
  exact ⟨Prod.ext rfl (Function.update_self r _ s.pc).symm,
    Function.update_of_ne (Bool.not_ne_self r) _ _⟩

/-- A request that is done takes no step. -/
theorem step_done {ok : Bool} (hpc : s.pc r = .done ok) (h : Step env column id u s r s') :
    s' = s := by
  cases h
  simp only [hpc, update_step]
  rw [← hpc, Function.update_eq_self]

/-- The request is rejected as it would be on what is committed, or on what was. -/
theorem Inv.rejected (halone : update_alone env column id (u !r) db = (s.tables, s.pc !r))
    (hpc : s.pc r = .done false)
    (h : update_alone env column id (u r) s.tables = (s.tables, .done false) ∨
      update_alone env column id (u r) db = (db, .done false)) : Inv env column id u db s := by
  rcases h with hafter | hbefore
  · refine .ordered (!r) s.tables 5 halone ?_
    rw [Bool.not_not, hpc]
    exact hafter
  · refine .ordered r db 5 ?_ halone
    rw [hpc]
    exact hbefore

/-- The commits are in the order of the loads, or in the other. -/
theorem serial_of_orders (hpc : ∀ r, s.pc r = .done true)
    (h : Orders env column id (u !r) (u r) db s.tables ∨
      Orders env column id (u r) (u !r) db s.tables) : s.Serial env column id u db := by
  rcases h with ⟨stamp, db₁, db₂, hfirst, hsecond, hrow⟩ | ⟨stamp, db₁, db₂, hfirst, hsecond, hrow⟩
  · refine ⟨!r, fun _ => stamp, ?_, ?_, ?_⟩
    · simp only [hpc, hfirst]
    · simp only [Bool.not_not, hpc, hfirst, hsecond]
    · simp only [Bool.not_not, hfirst, hsecond, hrow]
  · refine ⟨r, fun _ => stamp, ?_, ?_, ?_⟩
    · simp only [hpc, hfirst]
    · simp only [hpc, hfirst, hsecond]
    · simp only [hfirst, hsecond, hrow]

/-- A step of a request that had loaded its row before the other committed. -/
theorem inv_late (hname : ∀ row, db.jobs.get id = some row → name_taken db.jobs row = false)
    (halone : update_alone env column id (u !r) db = (s.tables, .done true))
    (hdone : s.pc (!r) = .done true) (hunder : (s.pc r).Under)
    (hfrom : (s.pc r).From env id (u r) db) (horder : s.InOrder env column id u db r)
    (h : Step env column id u s r s') : Inv env column id u db s' := by
  obtain ⟨hstep, hother⟩ := step_ok h
  have hcommitted := halone
  rw [← hdone, ← hother] at halone
  -- not at its end yet, the request stays late
  have stays : s'.tables = s.tables → (s'.pc r).Under → Inv env column id u db s' := by
    intro htables hunder'
    have hfrom' := hfrom.step column (fun hpc => absurd hpc hunder.ne_start : _ → s.tables = db)
    rw [hstep] at hfrom'
    rw [← htables] at halone
    rw [hdone] at hother
    rw [hother] at halone
    exact .late r halone hother hunder' hfrom'
  have rejected : s'.tables = s.tables → s'.pc r = .done false →
      update_alone env column id (u r) s.tables = (s.tables, .done false) ∨
        update_alone env column id (u r) db = (db, .done false) → Inv env column id u db s' := by
    intro htables hpc' hrejects
    rw [← htables] at halone hrejects
    exact .rejected halone hpc' hrejects
  obtain ⟨loaded, second, hcommits⟩ := commits_of_alone hcommitted
  have hfree := hname loaded hcommits.get
  have refused : ∀ job a, update_job_row env (u r).now loaded (u r).data = .ok job →
      s.tables.write column (u r) loaded job a = none →
      (¬ s.tables.Admits a → Rejects env id s.tables (u r) ∨ Rejects env id db (u r)) →
      update_alone env column id (u r) s.tables = (s.tables, .done false) ∨
        update_alone env column id (u r) db = (db, .done false) := by
    intro job a hjob hwrite hrejects
    by_cases ha : s.tables.Admits a
    · exact .inr (hcommits.name_taken_late hfree hjob ha hwrite)
    · exact (hrejects ha).imp Rejects.alone Rejects.alone
  have horder := horder hdone
  cases hpc : s.pc r with
  | start => exact absurd hpc hunder.ne_start
  | done ok => exact absurd hpc (hunder.ne_done ok)
  | loaded row =>
      rw [hpc] at hstep hfrom
      simp only [update_step] at hstep
      split at hstep
      · next e herror =>
          obtain ⟨htables, hpc'⟩ := Prod.mk.inj hstep
          refine rejected htables.symm hpc'.symm (.inr (update_alone_refused ?_))
          intro row' job hget hjob
          cases hget.symm.trans hfrom
          rw [herror] at hjob
          cases hjob
      · obtain ⟨htables, hpc'⟩ := Prod.mk.inj hstep
        exact stays htables.symm (by rw [← hpc']; trivial)
  | modified row job a =>
      rw [hpc] at hstep hfrom
      simp only [hpc] at horder
      obtain ⟨hget, hjob⟩ := hfrom
      cases hcommits.get.symm.trans hget
      simp only [update_step] at hstep
      split at hstep
      · next hwrite =>
          obtain ⟨htables, hpc'⟩ := Prod.mk.inj hstep
          exact rejected htables.symm hpc'.symm (refused job a hjob hwrite horder)
      · obtain ⟨htables, hpc'⟩ := Prod.mk.inj hstep
        exact stays htables.symm (by rw [← hpc']; trivial)
  | flushed row job a =>
      rw [hpc] at hstep
      simp only [hpc] at horder
      simp only [update_step] at hstep
      split at hstep
      · next hcyclic =>
          obtain ⟨htables, hpc'⟩ := Prod.mk.inj hstep
          exact rejected htables.symm hpc'.symm
            ((horder hcyclic).imp Rejects.alone Rejects.alone)
      · obtain ⟨htables, hpc'⟩ := Prod.mk.inj hstep
        exact stays htables.symm (by rw [← hpc']; trivial)
  | checked row job a =>
      rw [hpc] at hstep hfrom
      simp only [hpc] at horder
      obtain ⟨hget, hjob⟩ := hfrom
      cases hcommits.get.symm.trans hget
      simp only [update_step] at hstep
      split at hstep
      · next hwrite =>
          obtain ⟨htables, hpc'⟩ := Prod.mk.inj hstep
          exact rejected htables.symm hpc'.symm (refused job a hjob hwrite horder.1)
      · next db₂ hwrite =>
          obtain ⟨htables, hpc'⟩ := Prod.mk.inj hstep
          have ha : s.tables.Admits a := by
            by_contra ha
            rw [JobTables.write, if_neg ha] at hwrite
            cases hwrite
          have hends : ∀ k, s'.pc k = .done true := by
            intro k
            by_cases hk : k = r
            · rw [hk, ← hpc']
            · rw [Bool.eq_not.mpr hk, hother, hdone]
          rw [htables] at hwrite
          refine .ended (serial_of_orders (r := r) hends ?_) fun r => ⟨true, hends r⟩
          rcases horder.2 ha _ hcommits.get' with ⟨hafter, hacyclic⟩ | ⟨hbefore, hacyclic, hother⟩
          · exact .inl (orders_after hcommits hfree hjob ha hwrite hcommits.get' hafter hacyclic)
          · exact .inr (orders_before hcommits hfree hjob ha hwrite hcommits.get' hbefore hacyclic
              rfl hother)

/-- **The step lemma.** -/
theorem inv_step (hname : ∀ row, db.jobs.get id = some row → name_taken db.jobs row = false)
    (hi : Inv env column id u db s) (horder : s.InOrder env column id u db r)
    (h : Step env column id u s r s') : Inv env column id u db s' := by
  by_cases hended : ∃ ok, s.pc r = .done ok
  · obtain ⟨ok, hpc⟩ := hended
    rw [step_done hpc h]
    exact hi
  obtain ⟨hstep, hother⟩ := step_ok h
  cases hi with
  | early htables hearly =>
      obtain ⟨n, hn⟩ := hearly r
      have hnext : update_steps env column id (u r) db (n + 1) = (s'.tables, s'.pc r) := by
        rw [← hstep, htables]
        simp only [update_steps, hn]
      obtain ⟨k, hk⟩ := hearly !r
      rw [← hother] at hk
      by_cases hsame : s'.tables = db
      · rw [hsame] at hnext
        refine .early hsame fun x => ?_
        by_cases hx : x = r
        · rw [hx]
          exact ⟨n + 1, hnext⟩
        · rw [Bool.eq_not.mpr hx]
          exact ⟨k, hk⟩
      · -- the request has committed
        have hpc' : s'.pc r = .done true :=
          (update_step_tables hstep).resolve_left (htables ▸ hsame)
        rw [hpc'] at hnext
        have halone := update_alone_of_steps hnext
        cases hpc : s'.pc !r with
        | start =>
            refine .ordered r s'.tables 0 ?_ ?_
            · rw [hpc']
              exact halone
            · rw [hpc]
              rfl
        | done ok =>
            rw [hpc] at hk
            refine .ordered (!r) db (n + 1) ?_ ?_
            · rw [hpc]
              exact update_alone_of_steps hk
            · rw [Bool.not_not, hpc']
              exact hnext
        | loaded | modified | flushed | checked =>
            rcases from_update_steps hk with hdone | ⟨_, hfrom⟩
            · rw [hpc] at hdone
              cases hdone
            · refine .late (!r) ?_ ?_ ?_ hfrom
              · rw [Bool.not_not]
                exact halone
              · rw [Bool.not_not, hpc']
              · rw [hpc]
                trivial
  | ordered first db₁ n halone hsteps =>
      have hr : r = !first := by
        refine Bool.eq_not.mpr fun hr => hended ?_
        obtain ⟨_, ok, hdone⟩ := update_alone_done env column id (u first) db
        rw [halone] at hdone
        exact ⟨ok, hr ▸ (Prod.mk.inj hdone).2⟩
      subst hr
      rw [Bool.not_not] at hother
      refine .ordered first db₁ (n + 1) ?_ ?_
      · rw [hother]
        exact halone
      · rw [← hstep]
        simp only [update_steps, hsteps]
  | late late halone hdone hunder hfrom =>
      have hr : r = late := by
        by_contra hne
        rw [← Bool.eq_not.mpr hne] at hdone
        exact hended ⟨true, hdone⟩
      subst hr
      exact inv_late hname halone hdone hunder hfrom horder h
  | ended _ hends => exact absurd (hends r) hended

/-- **Overlapping updates are serial where each ends in order.**  Whatever the payloads, the
row and the tables, and however the steps of two updates of a job interleave: if each request
that ends after the other has committed is rejected, or commits, as it would be after the
other or before, then the row and the set of requests that succeed are those of executing
one after the other, each alone. -/
theorem overlapping_updates (env : Env) (column : JSONBCompat) (id : JobId)
    (u : Bool → UpdateRequest) (db : JobTables)
    (hname : ∀ row, db.jobs.get id = some row → name_taken db.jobs row = false) {s : UpdatePair}
    (hrun : Run (Step env column id u) (fun s r => s.InOrder env column id u db r) (start db) s)
    (hends : ∀ r, ∃ ok, s.pc r = .done ok) : s.Serial env column id u db := by
  have hi : Inv env column id u db s :=
    hrun.invariant (fun hi horder h => inv_step hname hi horder h) inv_start
  cases hi with
  | early htables hearly =>
      have halone : ∀ r, update_alone env column id (u r) db = (db, s.pc r) := by
        intro r
        obtain ⟨ok, hpc⟩ := hends r
        obtain ⟨n, hn⟩ := hearly r
        rw [hpc] at hn ⊢
        exact update_alone_of_steps hn
      refine ⟨true, fun r => (u r).stamp, ?_, ?_, ?_⟩
      · simp only [halone]
      · simp only [halone]
      · simp only [halone, htables]
  | ordered first db₁ n halone hsteps =>
      obtain ⟨ok, hpc⟩ := hends !first
      have halone' : update_alone env column id (u !first) db₁ = (s.tables, s.pc !first) := by
        rw [hpc] at hsteps ⊢
        exact update_alone_of_steps hsteps
      refine ⟨first, fun r => (u r).stamp, ?_, ?_, ?_⟩
      · simp only [halone]
      · simp only [halone, halone']
      · simp only [halone, halone']
  | late r _ _ hunder _ =>
      obtain ⟨ok, hpc⟩ := hends r
      exact absurd hpc (hunder.ne_done ok)
  | ended hserial _ => exact hserial

end Steps

/-! ### Examples -/

/-- One job, which runs once a minute. -/
def example_tables : JobTables := ⟨example_jobs, []⟩

def example_update (data : JobUpdate) : UpdateRequest := ⟨seconds 1, seconds 1, data, none, none⟩

/-- The job is renamed, and disabled at the same time. -/
def example_pair : Bool → UpdateRequest
  | false => example_update { name := .value "z" }
  | true => example_update { enabled := .value false }

/-- Both have loaded the row before either commits. -/
theorem overlapping_updates_disjoint : ∃ s,
    Run (Step example_env .json 1 example_pair)
      (fun s r => s.InOrder example_env .json 1 example_pair example_tables r)
      (start example_tables) s ∧ (∀ r, s.pc r = .done true) ∧
    s.Serial example_env .json 1 example_pair example_tables := by
  have h : Run (Step example_env .json 1 example_pair)
      (fun s r => s.InOrder example_env .json 1 example_pair example_tables r)
      (start example_tables) (start example_tables) := .refl
  have h := h.snoc (l := false) (by rintro ⟨⟩) (.step nofun)
  have h := h.snoc (l := true) (by rintro ⟨⟩) (.step nofun)
  have h := h.snoc (l := false) (by rintro ⟨⟩) (.step nofun)
  have h := h.snoc (l := true) (by rintro ⟨⟩) (.step nofun)
  have h := h.snoc (l := false) (by rintro ⟨⟩) (.step nofun)
  have h := h.snoc (l := false) (by rintro ⟨⟩) (.step nofun)
  have h := h.snoc (l := false) (by rintro ⟨⟩) (.step nofun)
  have h := h.snoc (l := true) (by
    intro _ _ hrefused
    exact absurd (by decide) hrefused) (.step nofun)
  have h := h.snoc (l := true) (by
    intro _ _ hcyclic
    exact absurd hcyclic (by decide)) (.step nofun)
  have h := h.snoc (l := true) (by
    intro _ _
    refine ⟨fun hrefused => absurd (by decide) hrefused, ?_⟩
    rintro _ row ⟨⟩
    refine .inl ⟨⟨?_, nofun, _, _, rfl, rfl, .inl ⟨held_refl _, held_refl _⟩⟩, by decide⟩
    intro c hnames
    cases c <;> first | exact False.elim hnames | exact .inl (by decide)) (.step nofun)
  refine ⟨_, h, fun r => ?_, overlapping_updates example_env .json 1 example_pair example_tables
    (by rintro row ⟨⟩; decide) h fun r => ⟨true, ?_⟩⟩ <;> cases r <;> rfl

/-- `{"url": url, "command": command}`: each schema takes it, and looks at its own key. -/
def example_mixed_config (url command : String) : Json :=
  .obj (.cons "url" (.str url) (.cons "command" (.str command) .nil))

/-- A job that is run on demand. -/
def example_mixed_tables (action_type : ActionType) (config : Json) (command : List String)
    (updated_at : Int) : JobTables where
  jobs := ⟨[{
    id := 1
    name := "mixed"
    job_type := .normal
    cron_expression := none
    action_type := action_type
    action_config := config
    runtime_spec := some (runtime_spec
      (match action_type with
        | .shell => _SHELL_IMAGE
        | .http => _HTTP_IMAGE) command 30)
    enabled := true
    concurrency_policy := .allow
    max_retries := 0
    next_fire_at := none
    created_at := 0
    updated_at := updated_at }], List.nodup_singleton _⟩
  job_dependencies := []

def example_mixed_start : JobTables :=
  example_mixed_tables .http (example_mixed_config "u" "c") ["curl", "-fsS", "-X", "GET", "u"] 0

/-- One request makes a shell job of the HTTP job, the other gives it another config. -/
def example_mixed_pair : Bool → UpdateRequest
  | false => example_update { action_type := .value .shell }
  | true => example_update { action_config := .value (example_mixed_config "v" "d") }

/-- Whichever comes first, the other leaves a job that runs the command of its config. -/
theorem example_mixed_serial (first : Bool) (stamp stamp' : Int) :
    ((update_alone (example_python.env every_minute) .json 1
      { example_mixed_pair (!first) with stamp := stamp' }
      (update_alone (example_python.env every_minute) .json 1
        { example_mixed_pair first with stamp := stamp } example_mixed_start).1).1.jobs.get 1).map
        Job.runtime_spec = some (some (runtime_spec _SHELL_IMAGE ["sh", "-c", "d"] 30)) := by
  cases first with
  | false =>
      have hfirst : (update_alone (example_python.env every_minute) .json 1
          { example_mixed_pair false with stamp := stamp } example_mixed_start).1 =
          example_mixed_tables .shell (example_mixed_config "u" "c") ["sh", "-c", "c"] stamp := rfl
      rw [hfirst]
      rfl
  | true =>
      have hfirst : (update_alone (example_python.env every_minute) .json 1
          { example_mixed_pair true with stamp := stamp } example_mixed_start).1 =
          example_mixed_tables .http (example_mixed_config "v" "d")
            ["curl", "-fsS", "-X", "GET", "v"] stamp := rfl
      rw [hfirst]
      rfl

/-- The row says `shell`, shows the new config, and runs `curl`. -/
theorem mixed_row :
    ¬ ∀ s, Run (Step (example_python.env every_minute) .json 1 example_mixed_pair) Any
      (start example_mixed_start) s → (∀ r, ∃ ok, s.pc r = .done ok) →
      s.Serial (example_python.env every_minute) .json 1 example_mixed_pair
        example_mixed_start := by
  intro hall
  have h : Run (Step (example_python.env every_minute) .json 1 example_mixed_pair) Any
      (start example_mixed_start) (start example_mixed_start) := .refl
  have h := h.snoc (l := false) trivial (.step nofun)
  have h := h.snoc (l := true) trivial (.step nofun)
  have h := h.snoc (l := false) trivial (.step nofun)
  have h := h.snoc (l := true) trivial (.step nofun)
  have h := h.snoc (l := false) trivial (.step nofun)
  have h := h.snoc (l := false) trivial (.step nofun)
  have h := h.snoc (l := false) trivial (.step nofun)
  have h := h.snoc (l := true) trivial (.step nofun)
  have h := h.snoc (l := true) trivial (.step nofun)
  have h := h.snoc (l := true) trivial (.step nofun)
  obtain ⟨first, stamp, _, _, hrow⟩ := hall _ h fun r => ⟨true, by cases r <;> rfl⟩
  have hserial := (congrArg (Option.map Job.runtime_spec) hrow).trans
    (example_mixed_serial first (stamp first) (stamp !first))
  exact absurd hserial (by decide)

end UpdatePair

end Dass
