/-
# `Dass.MessageBody` — from a message's body to a row, and what becomes of the message

`_extract_task_id` and `handle` of `backend/app/cli.py`, the body that `send_task` of
`backend/app/queue/sqs.py` writes, and the `GUID` column (`backend/app/db/types.py`) that reads
a task id before any row is looked up.

A body goes through three readers.  `json.loads` gives one of four shapes, and a text it
refuses is the id itself; what counts as no id is dropped with its message; the rest is made a
`str`, and `uuid.UUID` has to take it.  Where the last one, or `json.loads` in its own way,
raises, nothing has been decided about the message, so it comes back, and raises again
(`no_poison_iff`): a body that is no UUID and names no task is never dropped.
-/
import Dass.Acknowledgement
import Dass.Lib.JsonText

namespace Dass

open Lts JsonText

/-! ## `uuid.UUID` -/

/-- What is taken from CPython as it is. -/
structure PyText where
  /-- `str` of a float, a list or a dict -/
  repr : Value → String
  /-- the value of a decimal digit outside ASCII -/
  decimal : Char → Option Nat
  /-- the containers `json` reads inside each other -/
  recursion_limit : Nat
  recursion_limit_pos : 0 < recursion_limit

/-- `text.replace(part, "")`; `found` characters of a part that was found are still to go. -/
def remove (part : List Char) (found : Nat) : List Char → List Char
  | [] => []
  | c :: rest =>
      match found with
      | n + 1 => remove part n rest
      | 0 =>
          if part.isPrefixOf (c :: rest) then remove part (part.length - 1) rest
          else c :: remove part 0 rest

/-- `text.strip("\x7b\x7d")`. -/
def strip_braces (text : List Char) : List Char :=
  let brace (c : Char) : Bool := c = '\x7b' || c = '\x7d'
  ((text.dropWhile brace).reverse.dropWhile brace).reverse

/-- `Py_ISSPACE`. -/
def ascii_space (c : Char) : Bool :=
  c = ' ' || (9 ≤ c.toNat && c.toNat ≤ 13)

/-- `str.isspace` outside ASCII. -/
def unicode_space (c : Char) : Bool :=
  c.toNat ∈ [0x85, 0xa0, 0x1680, 0x2028, 0x2029, 0x202f, 0x205f, 0x3000] ||
  (0x2000 ≤ c.toNat && c.toNat ≤ 0x200a)

/-- `_PyUnicode_TransformDecimalAndSpaceToASCII`. -/
def PyText.to_ascii (py : PyText) : List Char → List Char
  | [] => []
  | c :: rest =>
      if c.toNat < 127 then c :: py.to_ascii rest
      else if unicode_space c then ' ' :: py.to_ascii rest
      else
        match py.decimal c with
        | some d => hexDigit d :: py.to_ascii rest
        | none => ['?']

/-- Hex digits with single underscores between them (`long_from_binary_base`). -/
def scan_hex (underscore : Bool) : List Char → Option (List Nat × List Char)
  | [] => if underscore then none else some ([], [])
  | c :: rest =>
      match hexValue c with
      | some d => (scan_hex false rest).map fun p => (d :: p.1, p.2)
      | none =>
          if underscore then none
          else if c = '_' then scan_hex true rest else some ([], c :: rest)

/-- The sign, and what is behind it. -/
def int_sign : List Char → Bool × List Char
  | [] => (false, [])
  | c :: rest =>
      if c = '-' then (true, rest) else if c = '+' then (false, rest) else (false, c :: rest)

/-- Without `0x`, and one underscore behind it. -/
def drop_0x : List Char → List Char
  | '0' :: x :: rest =>
      if x = 'x' ∨ x = 'X' then
        match rest with
        | '_' :: rest => rest
        | _ => rest
      else '0' :: x :: rest
  | s => s

/-- `int(text, 16)`. -/
def PyText.int16 (py : PyText) (text : List Char) : Option Int := do
  let (negative, s) := int_sign ((py.to_ascii text).dropWhile ascii_space)
  let (ds, rest) ← scan_hex false (drop_0x s)
  if (drop_0x s).head? = some '_' ∨ ds = [] ∨ rest.any (!ascii_space ·) then none
  else
    let n : Int := (ds.foldl (fun n d => n * 16 + d) 0 : Nat)
    return if negative then -n else n

/-- `uuid.UUID(text)`; `none` is its `ValueError`. -/
def PyText.UUID (py : PyText) (text : String) : Option TaskId :=
  let hex := remove "uuid:".toList 0 (remove "urn:".toList 0 text.toList)
  let hex := (strip_braces hex).filter (· ≠ '-')
  if hex.length ≠ 32 then none
  else (py.int16 hex).bind fun n => if 0 ≤ n ∧ n < 2 ^ 128 then some n.toNat else none

/-! ## The body -/

/-- `bool(value)`.  A float is zero where it rounds to it. -/
def truthy : Value → Bool
  | .null => false
  | .bool b => b
  | .int i => i ≠ 0
  | .float m e => 10 ^ (-e).toNat < m.natAbs * 10 ^ e.toNat * 2 ^ 1075
  | .nan | .infinity _ => true
  | .str s => s ≠ ""
  | .arr items => !items.isEmpty
  | .obj fields => !fields.isEmpty

/-- `str(value)`. -/
def PyText.str (py : PyText) : Value → String
  | .null => "None"
  | .bool b => if b then "True" else "False"
  | .int i => toString i
  | .nan => "nan"
  | .infinity negative => if negative then "-inf" else "inf"
  | .str s => s
  | v => py.repr v

/-- The body `send_task` writes. -/
def send_task (task_id : String) : String := dumps_member "task_id" task_id

/-- `_extract_task_id`; what it raises is what `json.loads` raises and it does not catch.
`.null` is `None`. -/
def PyText._extract_task_id (py : PyText) (body : String) : Except Raised Value :=
  match loads py.recursion_limit body with
  | .error .decode => .ok (if body = "" then .null else .str body)
  | .error e => .error e
  | .ok (.str s) => .ok (.str s)
  | .ok (.obj fields) => .ok ((fields.lookup "task_id").getD .null)
  | .ok _ => .ok .null

/-- What `GUID.process_bind_param` makes of the task id, as `claim_task` binds it. -/
def PyText.process_bind_param (py : PyText) (task_id : Value) : Option TaskId :=
  py.UUID (py.str task_id)

/-- The row the body names. -/
def PyText.names (py : PyText) (body : String) : Option TaskId :=
  match py._extract_task_id body with
  | .error _ => none
  | .ok v => if truthy v then py.process_bind_param v else none

/-- What was sent is extracted again. -/
theorem PyText.extract_send_task (py : PyText) (t : String) :
    py._extract_task_id (send_task t) = .ok (.str t) := by
  obtain ⟨depth, hdepth⟩ := Nat.exists_eq_add_one.mpr py.recursion_limit_pos
  rw [_extract_task_id, send_task, hdepth, loads_dumps_member]
  rfl

/-! ## `handle` -/

/-- The point `handle` has reached. -/
inductive HandlePc where
  | received
  | processing (call : Call)
  /-- `delete_message` is next -/
  | deleting
  | deleted
  /-- "Task not claimed, message kept" -/
  | kept (call : Call)
  /-- "Failed to process message" -/
  | raised

/-- A message in the hands of a worker. -/
structure Handling where
  now : Int
  jobs : Table Job
  store : Store
  service : WorkerService
  body : String
  pc : HandlePc
  /-- the steps `handle` has taken -/
  steps : Nat

inductive Handling.Label where
  | own | others | jobs | fail

/-- A step of `handle`, or of those it shares the tables with: they leave the row the body
names to its workers (`Others`).  `fail` is a database or queue call that raises. -/
inductive Handling.Step (py : PyText) (h : HandlerId) : Handling → Handling.Label → Handling → Prop
  | unreadable {s : Handling} {e} : s.pc = .received → py._extract_task_id s.body = .error e →
      Handling.Step py h s .own { s with pc := .raised, steps := s.steps + 1 }
  | no_task_id {s : Handling} {v} : s.pc = .received → py._extract_task_id s.body = .ok v →
      truthy v = false →
      Handling.Step py h s .own { s with pc := .deleting, steps := s.steps + 1 }
  | no_uuid {s : Handling} {v} : s.pc = .received → py._extract_task_id s.body = .ok v →
      truthy v = true → py.process_bind_param v = none →
      Handling.Step py h s .own { s with pc := .raised, steps := s.steps + 1 }
  | process {s : Handling} {v T} : s.pc = .received → py._extract_task_id s.body = .ok v →
      truthy v = true → py.process_bind_param v = some T →
      Handling.Step py h s .own
        { s with pc := .processing (.start s.service T), steps := s.steps + 1 }
  | call {s : Handling} {c st' c'} : s.pc = .processing c →
      CallStep s.now s.jobs h s.store c st' c' → (∀ d, c.pc ≠ .returned d) → c'.pc ≠ .raised →
      Handling.Step py h s .own
        { s with store := st', pc := .processing c', steps := s.steps + 1 }
  | answer {s : Handling} {c d} : s.pc = .processing c → c.pc = .returned d →
      Handling.Step py h s .own
        { s with pc := if d then .deleting else .kept c, steps := s.steps + 1 }
  | delete_message {s : Handling} : s.pc = .deleting →
      Handling.Step py h s .own { s with pc := .deleted, steps := s.steps + 1 }
  | others {s : Handling} {st'} : (∀ T, py.names s.body = some T → Others T s.store st') →
      Handling.Step py h s .others { s with store := st' }
  | jobs {s : Handling} {now' jobs'} :
      Handling.Step py h s .jobs { s with now := now', jobs := jobs' }
  | fail {s : Handling} : s.pc ≠ .received → Handling.Step py h s .fail { s with pc := .raised }

/-- No database or queue call fails. -/
def Handling.NoFailure (_ : Handling) (l : Handling.Label) : Prop := l ≠ .fail

/-- A worker has received the message; the tables hold what they hold. -/
def Handling.start (now : Int) (jobs : Table Job) (store : Store) (service : WorkerService)
    (body : String) : Handling :=
  ⟨now, jobs, store, service, body, .received, 0⟩

/-- What `handle` saw of the task when it last looked. -/
def HandlePc.last_read : HandlePc → Option Task
  | .kept c => c.last_read
  | _ => none

/-- `handle` has returned. -/
def HandlePc.finished : HandlePc → Bool
  | .deleted | .kept _ | .raised => true
  | _ => false

/-- The steps after which a message nobody needs is deleted. -/
def _STEPS : Nat := 14

/-- What is asked of a message that was received with the tables `store`. -/
structure Handling.Fair (py : PyText) (h : HandlerId) (store : Store) (s : Handling) : Prop where
  /-- if it is kept, its task is there, and was pending or running at the last look -/
  kept : s.pc.finished = true → s.pc ≠ .deleted →
    ∃ T row, py.names s.body = some T ∧ s.store.status T ≠ none ∧ s.pc.last_read = some row ∧
      (row.status = .pending ∨ row.status = .running)
  /-- if it names no task that is there, it is deleted in a few steps -/
  dropped : (∀ T, py.names s.body = some T → store.status T = none) →
    s.pc = .deleted ∨
      s.steps < _STEPS ∧ s.pc.finished = false ∧ ∃ s', Handling.Step py h s .own s'

/-- `json.loads` reads the body or refuses it, and what it gives for an id is no id or the
text of a UUID. -/
def PyText.Readable (py : PyText) (body : String) : Prop :=
  ∃ v, py._extract_task_id body = .ok v ∧
    (truthy v = true → ∃ T, py.process_bind_param v = some T)

section Names

variable {py : PyText} {body : String} {v : Value}

theorem PyText.names_eq (hv : py._extract_task_id body = .ok v) (ht : truthy v = true) :
    py.names body = py.process_bind_param v := by
  rw [names, hv]
  exact if_pos ht

theorem PyText.names_of_error {e : Raised} (he : py._extract_task_id body = .error e) :
    py.names body = none := by
  rw [names, he]

theorem PyText.names_of_not_readable (h : ¬ py.Readable body) : py.names body = none := by
  cases hv : py._extract_task_id body with
  | error e => exact names_of_error hv
  | ok v =>
      cases ht : truthy v with
      | false =>
          rw [names, hv]
          exact if_neg (by rw [ht]; exact Bool.false_ne_true)
      | true =>
          rw [names_eq hv ht]
          cases hT : py.process_bind_param v with
          | none => rfl
          | some T => exact absurd ⟨v, hv, fun _ => ⟨T, hT⟩⟩ h

end Names

/-! ## What a step keeps -/

/-- What `handle` goes by at each point. -/
def Handling.Goes (py : PyText) (s : Handling) : Prop :=
  match s.pc with
  | .processing c =>
      c.Goes s.store false ∧ c.Counts ∧ py.names s.body = some c.task_id
  | .kept c => c.pc = .returned false ∧ c.Goes s.store false ∧ py.names s.body = some c.task_id
  | .raised => ¬ py.Readable s.body
  | _ => True

/-- The steps the call and `handle` still take while there is no row. -/
def CallPc.left : CallPc → Option Nat
  | .claiming n => if n < _LOOKUP_ATTEMPTS then some (3 + 2 * (_LOOKUP_ATTEMPTS - n)) else none
  | .lost n => if n < _LOOKUP_ATTEMPTS then some (2 + 2 * (_LOOKUP_ATTEMPTS - n)) else none
  | .unclaimed => some 3
  | .returned true => some 2
  | _ => none

def HandlePc.left : HandlePc → Option Nat
  | .received => some _STEPS
  | .processing c => c.pc.left
  | .deleting => some 1
  | .deleted => some 0
  | .kept _ | .raised => none

/-- The body names no row that is there, and `handle` is on its way to the deletion. -/
structure Handling.Gone (py : PyText) (s : Handling) : Prop where
  absent : ∀ T, py.names s.body = some T → s.store.status T = none
  named : ∀ c, s.pc = .processing c → py.names s.body = some c.task_id
  left : ∃ k, s.pc.left = some k ∧ s.steps + k ≤ _STEPS

section Step

variable {py : PyText} {h : HandlerId} {s s' : Handling} {l : Handling.Label}

theorem Handling.Step.body (hst : Handling.Step py h s l s') : s'.body = s.body := by
  cases hst <;> rfl

theorem Handling.Step.goes (hg : s.Goes py) (hl : l ≠ .fail) (hst : Handling.Step py h s l s') :
    s'.Goes py := by
  cases hst with
  | unreadable _ he =>
      rintro ⟨v, hv, _⟩
      rw [he] at hv
      cases hv
  | no_task_id | delete_message => trivial
  | no_uuid _ hv ht hnone =>
      rintro ⟨v', hv', hT⟩
      rw [hv] at hv'
      cases hv'
      obtain ⟨T, hT⟩ := hT ht
      rw [hnone] at hT
      cases hT
  | process _ hv ht hT => exact ⟨.inl rfl, rfl, (PyText.names_eq hv ht).trans hT⟩
  | call hpc hstep _ _ =>
      simp only [Goes, hpc] at hg
      exact ⟨hstep.goes hg.1, hstep.counts hg.2.1, hg.2.2.trans (by rw [hstep.task_id])⟩
  | @answer c d hpc hcall =>
      simp only [Goes, hpc] at hg
      cases d with
      | true => trivial
      | false => exact ⟨hcall, hg.1, hg.2.2⟩
  | others hothers =>
      unfold Goes at hg ⊢
      dsimp only
      split at hg
      · exact ⟨hg.1.others (hothers _ hg.2.2), hg.2⟩
      · exact ⟨hg.1, hg.2.1.others (hothers _ hg.2.2), hg.2.2⟩
      · exact hg
      · trivial
  | jobs => exact hg
  | fail => exact absurd rfl hl

theorem CallPc.left_claiming {n k : Nat} (hleft : (CallPc.claiming n).left = some k) :
    n < _LOOKUP_ATTEMPTS ∧ k = 3 + 2 * (_LOOKUP_ATTEMPTS - n) := by
  obtain ⟨hn, hk⟩ := Option.ite_none_right_eq_some.mp hleft
  exact ⟨hn, (Option.some.inj hk).symm⟩

theorem CallPc.left_lost {n k : Nat} (hleft : (CallPc.lost n).left = some k) :
    n < _LOOKUP_ATTEMPTS ∧ k = 2 + 2 * (_LOOKUP_ATTEMPTS - n) := by
  obtain ⟨hn, hk⟩ := Option.ite_none_right_eq_some.mp hleft
  exact ⟨hn, (Option.some.inj hk).symm⟩

theorem CallPc.left_pos {pc : CallPc} {k : Nat} (hleft : pc.left = some k) : 0 < k := by
  cases pc with
  | claiming n =>
      obtain ⟨_, rfl⟩ := left_claiming hleft
      omega
  | lost n =>
      obtain ⟨_, rfl⟩ := left_lost hleft
      omega
  | unclaimed =>
      cases hleft
      decide
  | returned d =>
      cases d with
      | true =>
          cases hleft
          decide
      | false => cases hleft
  | _ => cases hleft

/-- A step of the call, while there is no row. -/
theorem CallStep.left {now : Int} {jobs : Table Job} {st st' : Store} {c c' : Call} {k : Nat}
    (hst : CallStep now jobs h st c st' c') (hnone : st.status c.task_id = none)
    (hleft : c.pc.left = some k) (hraised : c'.pc ≠ .raised) :
    st' = st ∧ ∃ k', c'.pc.left = some k' ∧ k' + 1 = k := by
  have hrow : st.tasks.get c.task_id = none := Option.map_eq_none_iff.mp hnone
  cases hst with
  | claim _ hclaim =>
      obtain ⟨hpending, _⟩ := Store.wrote_claim hclaim
      rw [hnone] at hpending
      cases hpending
  | @claim_lost n hpc _ =>
      obtain ⟨hn, rfl⟩ := CallPc.left_claiming (hpc ▸ hleft)
      exact ⟨rfl, 2 + 2 * (_LOOKUP_ATTEMPTS - n), if_pos hn, by omega⟩
  | @check n hpc =>
      obtain ⟨hn, rfl⟩ := CallPc.left_lost (hpc ▸ hleft)
      refine ⟨rfl, ?_⟩
      rw [hrow]
      by_cases hagain : n + 1 < _LOOKUP_ATTEMPTS
      · have hcheck : after_check none n = .claiming (n + 1) := if_pos hagain
        rw [hcheck]
        exact ⟨3 + 2 * (_LOOKUP_ATTEMPTS - (n + 1)), if_pos hagain, by omega⟩
      · have hcheck : after_check none n = .unclaimed := if_neg hagain
        rw [hcheck]
        exact ⟨3, rfl, by omega⟩
  | recheck hpc =>
      rw [hpc] at hleft
      cases hleft
      rw [hrow]
      exact ⟨rfl, 2, rfl, rfl⟩
  | send hpc =>
      rw [hpc] at hleft
      cases hleft
  | fail => exact absurd rfl hraised
  | load hpc | load_none hpc | lookup hpc | lookup_none hpc | execute hpc | malformed hpc
  | heartbeat hpc | end_ hpc | record hpc | not_found hpc | retry hpc =>
      rw [hpc] at hleft
      cases hleft

/-- While there is no row, the call can go on until it answers. -/
theorem Call.can_step (now : Int) (jobs : Table Job) {st : Store} {c : Call} {k : Nat}
    (hnone : st.status c.task_id = none) (hleft : c.pc.left = some k)
    (hreturned : ∀ d, c.pc ≠ .returned d) :
    ∃ st' c', CallStep now jobs h st c st' c' ∧ c'.pc ≠ .raised := by
  have hrow : st.tasks.get c.task_id = none := Option.map_eq_none_iff.mp hnone
  cases hpc : c.pc with
  | claiming n =>
      have hlost : st.claim_task c.service h c.task_id now = none := by
        rw [Store.claim_task, hrow]
      exact ⟨_, _, .claim_lost hpc hlost, by rintro ⟨⟩⟩
  | lost n =>
      refine ⟨_, _, .check hpc, ?_⟩
      rcases after_check_cases (st.tasks.get c.task_id) n with ⟨m, heq⟩ | heq
      · rw [heq]
        rintro ⟨⟩
      · rw [heq]
        rintro ⟨⟩
  | unclaimed => exact ⟨_, _, .recheck hpc, by rintro ⟨⟩⟩
  | returned d => exact absurd hpc (hreturned d)
  | _ =>
      rw [hpc] at hleft
      cases hleft

theorem Handling.Step.gone (hr : py.Readable s.body) (hg : s.Gone py) (hl : l ≠ .fail)
    (hst : Handling.Step py h s l s') : s'.Gone py := by
  obtain ⟨v, hv, hid⟩ := hr
  obtain ⟨habsent, hnamed, k, hleft, hk⟩ := hg
  cases hst with
  | unreadable _ he =>
      rw [hv] at he
      cases he
  | no_uuid _ hv' ht hnone =>
      rw [hv] at hv'
      cases hv'
      obtain ⟨T, hT⟩ := hid ht
      rw [hnone] at hT
      cases hT
  | no_task_id hpc =>
      rw [hpc] at hleft
      cases hleft
      exact ⟨habsent, by rintro _ ⟨⟩, 1, rfl, by unfold _STEPS at hk ⊢; dsimp only; omega⟩
  | process hpc hv' ht hT =>
      rw [hpc] at hleft
      cases hleft
      refine ⟨habsent, ?_, 13, rfl, by unfold _STEPS at hk ⊢; dsimp only; omega⟩
      rintro _ ⟨⟩
      exact (PyText.names_eq hv' ht).trans hT
  | call hpc hstep _ hraised =>
      have hname := hnamed _ hpc
      rw [hpc] at hleft
      obtain ⟨rfl, k', hleft', rfl⟩ := hstep.left (habsent _ hname) hleft hraised
      refine ⟨habsent, ?_, k', hleft', by dsimp only; omega⟩
      rintro _ ⟨⟩
      rw [hstep.task_id]
      exact hname
  | @answer c d hpc hcall =>
      rw [hpc] at hleft
      simp only [HandlePc.left, hcall] at hleft
      cases d with
      | false => cases hleft
      | true =>
          cases hleft
          exact ⟨habsent, by rintro _ ⟨⟩, 1, rfl, by dsimp only; omega⟩
  | delete_message hpc =>
      rw [hpc] at hleft
      cases hleft
      exact ⟨habsent, by rintro _ ⟨⟩, 0, rfl, hk⟩
  | others hothers =>
      exact ⟨fun T hT => (hothers T hT).status_eq_none.mpr (habsent T hT), hnamed, k, hleft, hk⟩
  | jobs => exact ⟨habsent, hnamed, k, hleft, hk⟩
  | fail => exact absurd rfl hl

/-- On its way to the deletion, `handle` is there or can go on. -/
theorem Handling.Gone.can_step (hr : py.Readable s.body) (hg : s.Gone py) :
    s.pc = .deleted ∨
      s.steps < _STEPS ∧ s.pc.finished = false ∧ ∃ s', Handling.Step py h s .own s' := by
  obtain ⟨habsent, hnamed, k, hleft, hk⟩ := hg
  cases hpc : s.pc with
  | received =>
      rw [hpc] at hleft
      cases hleft
      refine .inr ⟨by unfold _STEPS at hk ⊢; omega, rfl, ?_⟩
      obtain ⟨v, hv, hid⟩ := hr
      cases ht : truthy v with
      | false => exact ⟨_, .no_task_id hpc hv ht⟩
      | true =>
          obtain ⟨T, hT⟩ := hid ht
          exact ⟨_, .process hpc hv ht hT⟩
  | processing c =>
      rw [hpc] at hleft
      have hpos := CallPc.left_pos hleft
      refine .inr ⟨by omega, rfl, ?_⟩
      by_cases hreturned : ∃ d, c.pc = .returned d
      · obtain ⟨d, hd⟩ := hreturned
        exact ⟨_, .answer hpc hd⟩
      · have hcall : ∀ d, c.pc ≠ .returned d := fun d hd => hreturned ⟨d, hd⟩
        obtain ⟨st', c', hstep, hraised⟩ := Call.can_step s.now s.jobs
          (habsent _ (hnamed c hpc)) hleft hcall
        exact ⟨_, .call hpc hstep hcall hraised⟩
  | deleting =>
      rw [hpc] at hleft
      cases hleft
      exact .inr ⟨by omega, rfl, _, .delete_message hpc⟩
  | deleted => exact .inl rfl
  | kept c | raised =>
      rw [hpc] at hleft
      cases hleft

end Step

/-! ## Every run -/

section Runs

variable {py : PyText} {h : HandlerId} {s : Handling} {body : String} {now : Int}
  {jobs : Table Job} {store : Store} {service : WorkerService}

theorem Handling.run_body
    (hrun : Run (Handling.Step py h) NoFailure (.start now jobs store service body) s) :
    s.body = body :=
  hrun.invariant (I := fun s => s.body = body) (fun hi _ hst => hst.body.trans hi) rfl

theorem fair_of_readable (hr : py.Readable body)
    (hrun : Run (Handling.Step py h) Handling.NoFailure (.start now jobs store service body) s) :
    s.Fair py h store := by
  have hbody := Handling.run_body hrun
  have hgoes : s.Goes py := hrun.invariant (fun hi hl hst => hst.goes hi hl) trivial
  constructor
  · intro hfinished hne
    unfold Handling.Goes at hgoes
    cases hpc : s.pc with
    | kept c =>
        simp only [hpc] at hgoes
        obtain ⟨hcall, hg, hname⟩ := hgoes
        simp only [Call.Goes, hcall] at hg
        obtain ⟨_, ⟨row, hread, hlive⟩, hthere⟩ := hg
        exact ⟨c.task_id, row, hname, hthere trivial, hread, TaskStatus.live_cases hlive⟩
    | raised =>
        simp only [hpc, hbody] at hgoes
        exact absurd hr hgoes
    | deleted => exact absurd hpc hne
    | received | processing c | deleting =>
        rw [hpc] at hfinished
        cases hfinished
  · intro hnone
    rw [hbody] at hnone
    have hstart : (Handling.start now jobs store service body).Gone py :=
      ⟨hnone, by rintro _ ⟨⟩, _STEPS, rfl, Nat.le_of_eq (Nat.zero_add _)⟩
    have hgone : s.body = body ∧ s.Gone py := hrun.invariant
      (I := fun s => s.body = body ∧ s.Gone py)
      (fun hi hl hst => ⟨hst.body.trans hi.1, hst.gone (hi.1 ▸ hr) hi.2 hl⟩) ⟨rfl, hstart⟩
    exact hgone.2.can_step (hbody ▸ hr)

/-- A body that is not readable raises before any row is looked up, whatever the tables hold. -/
theorem poisons (h : HandlerId) (now : Int) (jobs : Table Job) (store : Store)
    (service : WorkerService) (hr : ¬ py.Readable body) :
    ∃ s, Run (Handling.Step py h) Handling.NoFailure (.start now jobs store service body) s ∧
      ¬ s.Fair py h store := by
  have hname := PyText.names_of_not_readable hr
  have unfair : ∀ s : Handling, s.body = body → s.pc = .raised →
      ¬ s.Fair py h store := by
    intro s hbody hpc hfair
    obtain ⟨T, _, hT, _⟩ := hfair.kept (by rw [hpc]; rfl) (by rw [hpc]; rintro ⟨⟩)
    rw [hbody, hname] at hT
    cases hT
  cases hv : py._extract_task_id body with
  | error e => exact ⟨_, .single (by rintro ⟨⟩) (.unreadable rfl hv), unfair _ rfl rfl⟩
  | ok v =>
      cases ht : truthy v with
      | false => exact absurd ⟨v, hv, fun h => by rw [ht] at h; cases h⟩ hr
      | true =>
          cases hT : py.process_bind_param v with
          | none => exact ⟨_, .single (by rintro ⟨⟩) (.no_uuid rfl hv ht hT), unfair _ rfl rfl⟩
          | some T => exact absurd ⟨v, hv, fun _ => ⟨T, hT⟩⟩ hr

end Runs

/-! ## No poison message -/

/-- **The messages that poison a queue.**  What was sent is extracted again.  And with
database and queue calls that do not fail, and no job deleted meanwhile, every run of `handle`
on a body keeps it only for a task that is there and was pending or running at the last look,
and drops it where it names no task that is there, if and only if the body is readable: what
`json.loads` does not read it refuses, and the id is none or the text of a UUID. -/
theorem no_poison_iff (py : PyText) (h : HandlerId) :
    (∀ t, py._extract_task_id (send_task t) = .ok (.str t)) ∧
    ∀ body now jobs store service,
      (∀ s, Run (Handling.Step py h) Handling.NoFailure (.start now jobs store service body) s →
        s.Fair py h store) ↔ py.Readable body := by
  refine ⟨py.extract_send_task, fun body now jobs store service =>
    ⟨fun hfair => ?_, fun hr s hrun => fair_of_readable hr hrun⟩⟩
  by_contra hr
  obtain ⟨s, hrun, hunfair⟩ := poisons h now jobs store service hr
  exact hunfair (hfair s hrun)

/-- CPython without digits outside ASCII. -/
def example_text : PyText where
  repr _ := "[]"
  decimal _ := none
  recursion_limit := 1000
  recursion_limit_pos := by decide

/-- A task id that was sent names its row. -/
example : example_text.names (send_task "00000000-0000-0000-0000-00000000000f") = some 15 := by
  decide +kernel

/-- `abc` is no JSON, so it is the id itself, and no UUID: the message comes back for ever. -/
theorem abc_poisons :
    ¬ ∀ body now jobs store service s,
      Run (Handling.Step example_text 7) Handling.NoFailure
        (.start now jobs store service body) s → s.Fair example_text 7 store := by
  intro hfair
  have hr : ¬ example_text.Readable "abc" := by
    rintro ⟨v, hv, hid⟩
    have habc : example_text._extract_task_id "abc" = .ok (.str "abc") := by rfl
    rw [habc] at hv
    cases hv
    obtain ⟨T, hT⟩ := hid (by decide)
    cases hT
  obtain ⟨s, hrun, hunfair⟩ := poisons 7 0 .empty ⟨.empty, []⟩ example_worker hr
  exact hunfair (hfair _ _ _ _ _ s hrun)

end Dass
