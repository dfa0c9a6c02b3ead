-- The pool of Postgres connections (PgPool.cpp). `execute` takes a slot, sees
-- to its connection, runs the caller's function on it, and gives the slot back
-- on each of its ways out. A connection that breaks is opened anew, and the
-- function is tried once more, unless it is a write that must not be.
import Loomic.Lib.Threads
import Mathlib.Data.List.Range

open coroutines machines

namespace loomic.pg_pool

/-! ## The pool -/

inductive RetryClass
  | ReadOnly
  | RetrySafeWrite
  | NonRetryableWrite
  deriving DecidableEq

/-- A `pqxx::broken_connection`, or any other exception. -/
inductive Exn (ε : Type)
  | broken_connection (e : ε)
  | other (e : ε)
  deriving DecidableEq

/-- Readings of `steady_clock` and durations, in nanoseconds. -/
abbrev Time := Int

def minutes (n : Int) : Time := n * 60000000000

def kConnectionValidationIdleThreshold : Time := minutes 5

def kConnectionMaxLifetime : Time := minutes 30

/-- Connections are numbered in the order in which they are opened. -/
abbrev Conn := Nat

/-- The pointer is never null: the constructor opens a connection for each slot, and where a new
one cannot be opened the old one stays. -/
structure Slot where
  conn : Conn
  created_at : Time
  last_used_at : Time
  last_validated_at : Time

/-- An assignment to a member of a slot. -/
inductive Write
  | conn (conn : Conn)
  | created_at (t : Time)
  | last_used_at (t : Time)
  | last_validated_at (t : Time)

def Slot.write (slot : Slot) : Write → Slot
  | .conn conn => { slot with conn := conn }
  | .created_at t => { slot with created_at := t }
  | .last_used_at t => { slot with last_used_at := t }
  | .last_validated_at t => { slot with last_validated_at := t }

structure PgPool where
  connections : List Slot
  free_list : List Nat
  next_conn : Conn

/-- The constructor, with the time of the start. -/
def PgPool.new (pool_size : Nat) (now : Time) : PgPool where
  connections := (List.range pool_size).map fun i =>
    { conn := i, created_at := now, last_used_at := now, last_validated_at := now }
  free_list := List.range pool_size
  next_conn := pool_size

/-- The last of the free slots. Without one the caller waits. -/
def PgPool.acquire (pool : PgPool) : Option (Nat × PgPool) :=
  pool.free_list.getLast?.map fun index =>
    (index, { pool with free_list := pool.free_list.dropLast })

def PgPool.release (pool : PgPool) (index : Nat) : PgPool :=
  { pool with free_list := pool.free_list ++ [index] }

def should_retry_once (retry_class : RetryClass) : Bool := retry_class ≠ .NonRetryableWrite

def should_probe_idle_connection (slot : Slot) (now : Time) : Bool :=
  kConnectionValidationIdleThreshold ≤ now - slot.last_used_at ∧
    kConnectionValidationIdleThreshold ≤ now - slot.last_validated_at

def should_recycle_connection (slot : Slot) (now : Time) : Bool :=
  kConnectionMaxLifetime ≤ now - slot.created_at

/-! ## One call of `execute` -/

/-- Where other threads may come in: the waits, each access to what the threads share, and what
is outside. `select_1` is the probe. -/
inductive Call
  | post
  | acquire
  | release (index : Nat)
  | now
  | read (index : Nat)
  | write (index : Nat) (w : Write)
  | is_open (conn : Conn)
  | connect
  | select_1 (conn : Conn)
  | func (conn : Conn)

@[reducible] def Call.Answer (ε ρ : Type) : Call → Type
  | .post => Unit
  | .acquire => Nat
  | .release _ => Unit
  | .now => Time
  | .read _ => Slot
  | .write _ _ => Unit
  | .is_open _ => Bool
  | .connect => Except (Exn ε) Conn
  | .select_1 _ => Except (Exn ε) Unit
  | .func _ => Except (Exn ε) ρ

variable {ε ρ : Type}

abbrev PoolCoroutine (ε ρ α : Type) := Coroutine Call (Call.Answer ε ρ) (Except (Exn ε) α)

def recreate_connection (index : Nat) : PoolCoroutine ε ρ Unit :=
  .await .connect fun
    | .error e => .ret (.error e)
    | .ok conn =>
      .await (.write index (.conn conn)) fun _ =>
      .await .now fun now =>
      .await (.write index (.created_at now)) fun _ =>
      .await (.write index (.last_used_at now)) fun _ =>
      .await (.write index (.last_validated_at now)) fun _ => .ret (.ok ())

def probe_connection (index : Nat) : PoolCoroutine ε ρ Unit :=
  .await (.read index) fun slot =>
  .await (.select_1 slot.conn) fun
    | .error e => .ret (.error e)
    | .ok () =>
      .await .now fun now =>
      .await (.write index (.last_validated_at now)) fun _ => .ret (.ok ())

def ensure_connection (index : Nat) : PoolCoroutine ε ρ Unit :=
  .await .now fun now =>
  .await (.read index) fun slot =>
  .await (.is_open slot.conn) fun is_open =>
    if is_open = false then recreate_connection index
    else if should_recycle_connection slot now then recreate_connection index
    else if should_probe_idle_connection slot now then
      (probe_connection index).handle fun
        | .broken_connection _ => recreate_connection index
        | .other e => .ret (.error (.other e))
    else .ret (.ok ())

/-- The end of a `try` block: `func(*slot.conn)`, and what follows it. -/
def invoke (index : Nat) : PoolCoroutine ε ρ ρ :=
  .await (.read index) fun slot =>
  .await (.func slot.conn) fun
    | .error e => .ret (.error e)
    | .ok result =>
      .await .now fun now =>
      .await (.write index (.last_used_at now)) fun _ =>
      .await (.release index) fun _ => .ret (.ok result)

/-- `release(index); throw;`. -/
def rethrow (index : Nat) (e : Exn ε) : PoolCoroutine ε ρ ρ :=
  .await (.release index) fun _ => .ret (.error e)

/-- The two handlers of `execute`. -/
def handlers (retry_class : RetryClass) (index : Nat) : Exn ε → PoolCoroutine ε ρ ρ
  | .broken_connection e =>
    if should_retry_once retry_class then
      ((recreate_connection index).next fun _ => invoke index).handle (rethrow index)
    else rethrow index (.broken_connection e)
  | .other e => rethrow index (.other e)

def execute (retry_class : RetryClass) : PoolCoroutine ε ρ ρ :=
  .await .post fun _ =>
  .await .acquire fun index =>
    ((ensure_connection index).next fun _ => invoke index).handle (handlers retry_class index)

/-- What the pool itself answers. A new connection gets the next number; whether it can be opened
is up to the environment, as are the times and what the other calls bring. -/
def serve : Serve Call (Call.Answer ε ρ) PgPool := fun pool call answer =>
  match call, answer with
  | .acquire, _ => pool.acquire
  | .release index, _ => some ((), pool.release index)
  | .read index, _ => pool.connections[index]?.map fun slot => (slot, pool)
  | .write index w, _ =>
    some ((), { pool with connections := pool.connections.modify index (·.write w) })
  | .connect, .ok _ => some (.ok pool.next_conn, { pool with next_conn := pool.next_conn + 1 })
  | .connect, .error e => some (.error e, pool)
  | _, answer => some (answer, pool)

/-- Any number of threads that call `execute`. -/
def pool (ε ρ : Type) (pool_size : Nat) (now : Time) :
    Machine (Threads Call (Call.Answer ε ρ) PgPool RetryClass (Except (Exn ε) ρ))
      (Threads.Label Call (Call.Answer ε ρ) RetryClass) :=
  threads execute serve (PgPool.new pool_size now)

/-! ## What has happened to a call -/

abbrev PoolHistory (ε ρ : Type) := History Call (Call.Answer ε ρ)

/-- The slots that the call has taken and not given back. -/
def held (h : PoolHistory ε ρ) : List Nat :=
  h.foldr (fun e slots => match e with
    | ⟨.acquire, index⟩ => index :: slots
    | ⟨.release index, _⟩ => slots.erase index
    | _ => slots) []

/-- The connection that the call has put into a slot since it took it. -/
def written (index : Nat) (h : PoolHistory ε ρ) : Option Conn :=
  h.foldr (fun e conn? => match e with
    | ⟨.acquire, i⟩ => if i = index then none else conn?
    | ⟨.write i (.conn conn), _⟩ => if i = index then some conn else conn?
    | _ => conn?) none

/-- The invocations of the function, the last one first: on which connection, and what it did. -/
def invocations (h : PoolHistory ε ρ) : List (Conn × Except (Exn ε) ρ) :=
  h.filterMap fun
    | ⟨.func conn, result⟩ => some (conn, result)
    | _ => none

def last_invocation (h : PoolHistory ε ρ) : Option (Except (Exn ε) ρ) :=
  (invocations h).head?.map (·.2)

/-- The exception that an event is. -/
def exception : Event Call (Call.Answer ε ρ) → Option (Exn ε)
  | ⟨.connect, .error e⟩ => some e
  | ⟨.select_1 _, .error e⟩ => some e
  | ⟨.func _, .error e⟩ => some e
  | _ => none

def last_exception (h : PoolHistory ε ρ) : Option (Exn ε) := h.findSome? exception

def Broken (e : Event Call (Call.Answer ε ρ)) : Prop :=
  ∃ e', exception e = some (.broken_connection e')

/-- The connection was opened after each `broken_connection`. -/
def Fresh (conn : Conn) (h : PoolHistory ε ρ) : Prop :=
  ∀ later e earlier, h = later ++ e :: earlier → Broken e → ⟨.connect, .ok conn⟩ ∈ later

/-- The first invocation, or the second one of a function that may be tried again, after a
`broken_connection`. -/
structure MayInvoke (retry_class : RetryClass) (h : PoolHistory ε ρ) (conn : Conn) : Prop where
  first_or_again : invocations h = [] ∨ retry_class ≠ .NonRetryableWrite ∧
    ∃ conn' e, invocations h = [(conn', .error (.broken_connection e))]
  fresh : Fresh conn h

/-- Only the slot that the call holds is touched, and it is the call's own. -/
def contract (retry_class : RetryClass) : Contract Call (Call.Answer ε ρ) where
  guarantee h
    | .acquire => held h = []
    | .release index => held h = [index]
    | .read index => held h = [index]
    | .write index _ => held h = [index]
    | .func conn => MayInvoke retry_class h conn
    | _ => True
  rely h
    | .read index => fun slot => ∀ conn, written index h = some conn → slot.conn = conn
    | _ => fun _ => True

/-- The slot is given back. A result is the one of the last invocation, and an exception is the
last one. -/
structure Ended (h : PoolHistory ε ρ) (r : Except (Exn ε) ρ) : Prop where
  slots : held h = []
  returns : ∀ x, r = .ok x ↔ last_invocation h = some (.ok x)
  throws : ∀ e, r = .error e → last_exception h = some e

/-! ## The functions keep the contract -/

section Keeps

variable {retry_class : RetryClass} {h : PoolHistory ε ρ} {index : Nat}

theorem fresh_of_no_exception {conn : Conn} (hno : last_exception h = none) : Fresh conn h := by
  rintro later e earlier rfl ⟨e', he⟩
  unfold last_exception at hno
  rw [List.findSome?_eq_none_iff] at hno
  rw [hno e (by simp)] at he
  cases he

theorem fresh_connect (conn : Conn) : Fresh conn (⟨.connect, .ok conn⟩ :: h) := by
  intro later e earlier heq hbroken
  cases later with
  | nil =>
    obtain ⟨rfl, rfl⟩ := List.cons.inj heq
    obtain ⟨e', he⟩ := hbroken
    cases he
  | cons e' later =>
    obtain ⟨rfl, _⟩ := List.cons.inj heq
    exact List.mem_cons_self

theorem fresh_cons {conn : Conn} {e : Event Call (Call.Answer ε ρ)} (he : exception e = none)
    (hfresh : Fresh conn h) : Fresh conn (e :: h) := by
  intro later e' earlier heq hbroken
  cases later with
  | nil =>
    obtain ⟨rfl, rfl⟩ := List.cons.inj heq
    obtain ⟨e', hsome⟩ := hbroken
    rw [he] at hsome
    cases hsome
  | cons e'' later =>
    obtain ⟨rfl, htail⟩ := List.cons.inj heq
    exact List.mem_cons_of_mem _ (hfresh later e' earlier htail hbroken)

/-- Opened anew, the slot has a connection that is younger than each failure. -/
theorem recreate_keeps (hheld : held h = [index]) :
    (recreate_connection index).Keeps (contract (ρ := ρ) retry_class)
      (fun h' r => held h' = [index] ∧ invocations h' = invocations h ∧ match r with
        | .ok () => ∃ conn, written index h' = some conn ∧ Fresh conn h'
        | .error e => last_exception h' = some e) h := by
  refine ⟨trivial, ?_⟩
  rintro (e | conn) _
  · exact ⟨hheld, rfl, rfl⟩
  · refine ⟨hheld, fun _ _ => ⟨trivial, fun now _ => ⟨hheld, fun _ _ => ⟨hheld, fun _ _ =>
      ⟨hheld, fun _ _ => ⟨hheld, rfl, conn, ?_, ?_⟩⟩⟩⟩⟩⟩
    · exact if_pos rfl
    · exact fresh_cons rfl (fresh_cons rfl (fresh_cons rfl (fresh_cons rfl (fresh_cons rfl
        (fresh_connect conn)))))

theorem probe_keeps (hheld : held h = [index]) :
    (probe_connection index).Keeps (contract (ρ := ρ) retry_class)
      (fun h' r => held h' = [index] ∧ invocations h' = invocations h ∧ match r with
        | .ok () => last_exception h' = last_exception h
        | .error e => last_exception h' = some e) h := by
  refine ⟨hheld, fun slot _ => ⟨trivial, ?_⟩⟩
  rintro (e | ⟨⟩) _
  · exact ⟨hheld, rfl, rfl⟩
  · exact ⟨trivial, fun now _ => ⟨hheld, fun _ _ => ⟨hheld, rfl, rfl⟩⟩⟩

/-- Whatever connection the slot has is younger than each failure. -/
def AllFresh (index : Nat) (h : PoolHistory ε ρ) : Prop :=
  ∀ conn, (∀ conn', written index h = some conn' → conn = conn') → Fresh conn h

theorem all_fresh_of_written {conn : Conn} (hw : written index h = some conn)
    (hfresh : Fresh conn h) : AllFresh index h := by
  intro conn' hconn'
  rw [hconn' conn hw]
  exact hfresh

theorem ensure_keeps (hheld : held h = [index]) (hno : last_exception h = none) :
    (ensure_connection index).Keeps (contract (ρ := ρ) retry_class)
      (fun h' r => held h' = [index] ∧ invocations h' = invocations h ∧ match r with
        | .ok () => AllFresh index h'
        | .error e => last_exception h' = some e) h := by
  have hrecreate : ∀ h', held h' = [index] → invocations h' = invocations h →
      (recreate_connection index).Keeps (contract (ρ := ρ) retry_class)
        (fun h' r => held h' = [index] ∧ invocations h' = invocations h ∧ match r with
          | .ok () => AllFresh index h'
          | .error e => last_exception h' = some e) h' := by
    intro h' hheld' hinv
    refine keeps_mono ?_ (recreate_keeps hheld')
    rintro h'' (e | ⟨⟩) ⟨hheld'', hinv'', hr⟩
    · exact ⟨hheld'', hinv''.trans hinv, hr⟩
    · obtain ⟨conn, hw, hfresh⟩ := hr
      exact ⟨hheld'', hinv''.trans hinv, all_fresh_of_written hw hfresh⟩
  refine ⟨trivial, fun now _ => ⟨hheld, fun slot _ => ⟨trivial, fun is_open _ => ?_⟩⟩⟩
  dsimp only
  split_ifs
  · exact hrecreate _ hheld rfl
  · exact hrecreate _ hheld rfl
  · rw [keeps_handle]
    refine keeps_mono ?_ (probe_keeps hheld)
    rintro h' (e | ⟨⟩) ⟨hheld', hinv, hr⟩
    · cases e with
      | broken_connection e => exact hrecreate _ hheld' hinv
      | other e => exact ⟨hheld', hinv, hr⟩
    · exact ⟨hheld', hinv, fun conn _ => fresh_of_no_exception (hr.trans hno)⟩
  · exact ⟨hheld, rfl, fun conn _ => fresh_of_no_exception hno⟩

theorem invoke_keeps (hheld : held h = [index])
    (hmay : ∀ conn, (∀ conn', written index h = some conn' → conn = conn') →
      MayInvoke retry_class h conn) :
    (invoke index).Keeps (contract (ρ := ρ) retry_class)
      (fun h' r => match r with
        | .ok x => held h' = [] ∧ last_invocation h' = some (.ok x)
        | .error e => held h' = [index] ∧ last_exception h' = some e ∧
          ∃ conn, invocations h' = (conn, .error e) :: invocations h) h := by
  refine ⟨hheld, fun slot hslot => ⟨?_, ?_⟩⟩
  · obtain ⟨hagain, hfresh⟩ := hmay slot.conn hslot
    exact ⟨hagain, fresh_cons rfl hfresh⟩
  · rintro (e | result) _
    · exact ⟨hheld, rfl, slot.conn, rfl⟩
    · refine ⟨trivial, fun now _ => ⟨hheld, fun _ _ => ⟨hheld, fun _ _ => ⟨?_, rfl⟩⟩⟩⟩
      change (held h).erase index = []
      rw [hheld, List.erase_cons_head]

theorem rethrow_keeps {e : Exn ε} (hheld : held h = [index]) (hlast : last_exception h = some e)
    (hno : ∀ x, last_invocation h ≠ some (.ok x)) :
    (rethrow index e).Keeps (contract (ρ := ρ) retry_class) Ended h := by
  refine ⟨hheld, fun _ _ => ⟨?_, ?_, ?_⟩⟩
  · change (held h).erase index = []
    rw [hheld, List.erase_cons_head]
  · intro x
    exact ⟨(nomatch ·), fun hx => absurd hx (hno x)⟩
  · rintro e' he
    cases he
    exact hlast

theorem ended_of_ok {x : ρ} (hheld : held h = []) (hlast : last_invocation h = some (.ok x)) :
    Ended h (.ok x) := by
  refine ⟨hheld, fun x' => ?_, fun _ he => nomatch he⟩
  rw [hlast]
  simp

/-- A call that is through with its first attempt and may make the second. -/
theorem handlers_keep {e : Exn ε} (hheld : held h = [index]) (hlast : last_exception h = some e)
    (hinv : invocations h = [] ∨ ∃ conn, invocations h = [(conn, .error e)]) :
    (handlers retry_class index e).Keeps (contract (ρ := ρ) retry_class) Ended h := by
  have hno : ∀ x, last_invocation h ≠ some (.ok x) := by
    intro x
    unfold last_invocation
    rcases hinv with hinv | ⟨conn, hinv⟩ <;> rw [hinv] <;> simp
  cases e with
  | other e => exact rethrow_keeps hheld hlast hno
  | broken_connection e =>
    unfold handlers
    dsimp only
    by_cases hretry : should_retry_once retry_class = true
    · rw [if_pos hretry, keeps_handle, keeps_next]
      refine keeps_mono ?_ (recreate_keeps hheld)
      rintro h' (e' | ⟨⟩) ⟨hheld', hinv', hr⟩
      · refine rethrow_keeps hheld' hr ?_
        unfold last_invocation
        rw [hinv']
        exact hno
      · obtain ⟨conn, hw, hfresh⟩ := hr
        have hagain : invocations h' = [] ∨ retry_class ≠ .NonRetryableWrite ∧
            ∃ conn' e', invocations h' = [(conn', .error (.broken_connection e'))] := by
          rw [hinv']
          refine hinv.imp_right ?_
          rintro ⟨conn', hconn'⟩
          exact ⟨of_decide_eq_true hretry, conn', e, hconn'⟩
        refine keeps_mono ?_ (invoke_keeps hheld' fun conn' hconn' =>
          ⟨hagain, all_fresh_of_written hw hfresh conn' hconn'⟩)
        rintro h'' (e' | x) hresult
        · obtain ⟨hheld'', hlast'', conn', hinv''⟩ := hresult
          refine rethrow_keeps hheld'' hlast'' ?_
          unfold last_invocation
          rw [hinv'']
          simp
        · exact ended_of_ok hresult.1 hresult.2
    · rw [if_neg hretry]
      exact rethrow_keeps hheld hlast hno

theorem execute_keeps (retry_class : RetryClass) :
    (execute retry_class : PoolCoroutine ε ρ ρ).Keeps (contract retry_class) Ended [] := by
  refine ⟨trivial, fun _ _ => ⟨rfl, fun index _ => ?_⟩⟩
  rw [keeps_handle, keeps_next]
  refine keeps_mono ?_ (ensure_keeps rfl rfl)
  rintro h (e | ⟨⟩) ⟨hheld, hinv, hr⟩
  · exact handlers_keep hheld hr (.inl hinv)
  · refine keeps_mono ?_ (invoke_keeps hheld fun conn hconn => ⟨.inl hinv, hr conn hconn⟩)
    rintro h' (e | x) hresult
    · obtain ⟨hheld', hlast, conn, hinv'⟩ := hresult
      refine handlers_keep hheld' hlast (.inr ⟨conn, ?_⟩)
      rw [hinv']
      exact congrArg _ hinv
    · exact ended_of_ok hresult.1 hresult.2

end Keeps

/-! ## The slots -/

/-- Each slot is free or held by one call, and has the connection that its holder put there. -/
structure Inv (pool_size : Nat) (pool : PgPool) (hs : List (RetryClass × PoolHistory ε ρ)) :
    Prop where
  slots : (pool.free_list ++ hs.flatMap fun t => held t.2).Perm (List.range pool_size)
  conns : ∀ t ∈ hs, ∀ index ∈ held t.2, ∀ conn, written index t.2 = some conn →
    ∀ slot, pool.connections[index]? = some slot → slot.conn = conn

section Slots

variable {pool_size : Nat} {pool pool' : PgPool} {retry_class : RetryClass}
  {hs : List (RetryClass × PoolHistory ε ρ)} {h : PoolHistory ε ρ} {index : Nat}

theorem inv_perm {hs' : List (RetryClass × PoolHistory ε ρ)} (hperm : hs.Perm hs')
    (hinv : Inv pool_size pool hs) : Inv pool_size pool hs' where
  slots := ((hperm.flatMap_right _).append_left _).symm.trans hinv.slots
  conns t ht := hinv.conns t (hperm.mem_iff.mpr ht)

theorem inv_new (now : Time) :
    Inv (ε := ε) (ρ := ρ) pool_size (PgPool.new pool_size now) [] where
  slots := by simp [PgPool.new]
  conns _ ht := absurd ht List.not_mem_nil

/-- A call that holds nothing more, or nothing any more. -/
theorem inv_of_held_nil (hnil : held h = []) :
    Inv pool_size pool ((retry_class, h) :: hs) ↔ Inv pool_size pool hs := by
  constructor
  · intro hinv
    refine ⟨?_, fun t ht => hinv.conns t (List.mem_cons_of_mem _ ht)⟩
    have hslots := hinv.slots
    rwa [List.flatMap_cons, hnil, List.nil_append] at hslots
  · intro hinv
    refine ⟨?_, ?_⟩
    · rw [List.flatMap_cons, hnil, List.nil_append]
      exact hinv.slots
    · intro t ht index hindex
      rcases List.mem_cons.mp ht with rfl | ht
      · rw [hnil] at hindex
        exact absurd hindex List.not_mem_nil
      · exact hinv.conns t ht index hindex

/-- An event that is about no slot. -/
theorem inv_aside {e : Event Call (Call.Answer ε ρ)} (hheld : held (e :: h) = held h)
    (hwritten : ∀ i, written i (e :: h) = written i h)
    (hfree : pool'.free_list = pool.free_list) (hconns : pool'.connections = pool.connections)
    (hinv : Inv pool_size pool ((retry_class, h) :: hs)) :
    Inv pool_size pool' ((retry_class, e :: h) :: hs) where
  slots := by
    rw [hfree, List.flatMap_cons, hheld]
    exact hinv.slots
  conns t ht i hi conn hconn slot hslot := by
    rw [hconns] at hslot
    rcases List.mem_cons.mp ht with rfl | ht
    · rw [hheld] at hi
      rw [hwritten] at hconn
      exact hinv.conns _ List.mem_cons_self i hi conn hconn slot hslot
    · exact hinv.conns t (List.mem_cons_of_mem _ ht) i hi conn hconn slot hslot

theorem inv_acquire (hheld : held h = []) (hpool : pool.acquire = some (index, pool'))
    (hinv : Inv pool_size pool ((retry_class, h) :: hs)) :
    Inv pool_size pool' ((retry_class, ⟨.acquire, index⟩ :: h) :: hs) := by
  obtain ⟨i, hlast, hpool⟩ := Option.map_eq_some_iff.mp hpool
  obtain ⟨rfl, rfl⟩ := Prod.mk.inj hpool
  obtain ⟨init, hfree⟩ := List.getLast?_eq_some_iff.mp hlast
  have hslots := hinv.slots
  rw [List.flatMap_cons, hheld, hfree] at hslots
  constructor
  · change (pool.free_list.dropLast ++ (i :: held h ++ hs.flatMap fun t => held t.2)).Perm _
    rw [hfree, List.dropLast_concat, hheld]
    simpa using hslots
  · intro t ht j hj conn hconn slot hslot
    rcases List.mem_cons.mp ht with rfl | ht
    · obtain rfl : j = i := by
        change j ∈ i :: held h at hj
        rw [hheld] at hj
        exact List.mem_singleton.mp hj
      change (if j = j then none else written j h) = some conn at hconn
      rw [if_pos rfl] at hconn
      cases hconn
    · exact hinv.conns t (List.mem_cons_of_mem _ ht) j hj conn hconn slot hslot

theorem inv_release (hheld : held h = [index])
    (hinv : Inv pool_size pool ((retry_class, h) :: hs)) :
    Inv pool_size (pool.release index) ((retry_class, ⟨.release index, ()⟩ :: h) :: hs) := by
  have hslots := hinv.slots
  have hnil : held (⟨.release index, ()⟩ :: h : PoolHistory ε ρ) = [] := by
    change (held h).erase index = []
    rw [hheld, List.erase_cons_head]
  rw [List.flatMap_cons, hheld] at hslots
  refine (inv_of_held_nil hnil).mpr ⟨?_, fun t ht => hinv.conns t (List.mem_cons_of_mem _ ht)⟩
  change (pool.free_list ++ [index] ++ hs.flatMap fun t => held t.2).Perm _
  rw [List.append_assoc]
  exact hslots

/-- Nobody else holds the slot. -/
theorem not_held_elsewhere (hinv : Inv pool_size pool ((retry_class, h) :: hs))
    (hindex : index ∈ held h) : ∀ t ∈ hs, index ∉ held t.2 := by
  intro t ht hmem
  have hnodup := (List.nodup_append.mp (hinv.slots.nodup_iff.mpr List.nodup_range)).2.1
  rw [List.flatMap_cons] at hnodup
  have hflat : index ∈ hs.flatMap fun t => held t.2 := List.mem_flatMap.mpr ⟨t, ht, hmem⟩
  exact (List.nodup_append.mp hnodup).2.2 index hindex index hflat rfl

theorem inv_write {w : Write} (hheld : held h = [index])
    (hinv : Inv pool_size pool ((retry_class, h) :: hs)) :
    Inv pool_size { pool with connections := pool.connections.modify index (·.write w) }
      ((retry_class, ⟨.write index w, ()⟩ :: h) :: hs) where
  slots := hinv.slots
  conns t ht j hj conn hconn slot hslot := by
    rw [List.getElem?_modify] at hslot
    obtain ⟨old, hold, rfl⟩ := Option.map_eq_some_iff.mp hslot
    rcases List.mem_cons.mp ht with rfl | ht
    · obtain rfl : j = index := by
        change j ∈ held h at hj
        rw [hheld] at hj
        exact List.mem_singleton.mp hj
      have hmem : j ∈ held h := by rw [hheld]; exact List.mem_singleton_self j
      rw [if_pos rfl]
      cases w with
      | conn new =>
        change (if j = j then some new else written j h) = some conn at hconn
        rw [if_pos rfl] at hconn
        exact Option.some.inj hconn
      | _ => exact hinv.conns _ List.mem_cons_self j hmem conn hconn old hold
    · have hmem : index ∈ held h := by rw [hheld]; exact List.mem_singleton_self index
      have hne : index ≠ j := by
        rintro rfl
        exact not_held_elsewhere hinv hmem t ht hj
      rw [if_neg hne]
      exact hinv.conns t (List.mem_cons_of_mem _ ht) j hj conn hconn old hold

theorem inv_serve {call : Call} {answer a : call.Answer ε ρ}
    (hinv : Inv pool_size pool ((retry_class, h) :: hs))
    (hguarantee : (contract retry_class).guarantee h call)
    (hserve : serve pool call answer = some (a, pool')) :
    (contract retry_class).rely h call a ∧
      Inv pool_size pool' ((retry_class, ⟨call, a⟩ :: h) :: hs) := by
  cases call with
  | acquire => exact ⟨trivial, inv_acquire hguarantee hserve hinv⟩
  | release index =>
    obtain ⟨rfl, rfl⟩ := Prod.mk.inj (Option.some.inj hserve)
    exact ⟨trivial, inv_release hguarantee hinv⟩
  | read index =>
    obtain ⟨slot, hslot, heq⟩ := Option.map_eq_some_iff.mp hserve
    obtain ⟨rfl, rfl⟩ := Prod.mk.inj heq
    refine ⟨fun conn hconn => ?_, inv_aside rfl (fun _ => rfl) rfl rfl hinv⟩
    have hmem : index ∈ held h := by
      change held h = [index] at hguarantee
      rw [hguarantee]
      exact List.mem_singleton_self index
    exact hinv.conns _ List.mem_cons_self index hmem conn hconn slot hslot
  | write index w =>
    obtain ⟨rfl, rfl⟩ := Prod.mk.inj (Option.some.inj hserve)
    exact ⟨trivial, inv_write hguarantee hinv⟩
  | connect =>
    cases answer <;>
    · obtain ⟨rfl, rfl⟩ := Prod.mk.inj (Option.some.inj hserve)
      refine ⟨trivial, inv_aside rfl (fun _ => rfl) ?_ ?_ hinv⟩ <;> rfl
  | _ =>
    obtain ⟨rfl, rfl⟩ := Prod.mk.inj (Option.some.inj hserve)
    exact ⟨trivial, inv_aside rfl (fun _ => rfl) rfl rfl hinv⟩

end Slots

def discipline (ε ρ : Type) (pool_size : Nat) (now : Time) :
    Discipline (execute (ε := ε) (ρ := ρ)) serve (PgPool.new pool_size now) where
  contract := contract
  post _ := Ended
  inv := Inv pool_size
  body_keeps := execute_keeps
  inv_perm := inv_perm
  inv_start := inv_new now
  inv_spawn _ hinv := (inv_of_held_nil rfl).mpr hinv
  inv_serve := inv_serve
  inv_finish hinv hended := (inv_of_held_nil hended.slots).mp hinv

/-! ## The attempts -/

/-- A function that must not be tried again is invoked once at most, and others twice, the second
time after a `broken_connection` and on a connection that is younger than it. -/
structure Attempts (retry_class : RetryClass) (h : PoolHistory ε ρ) : Prop where
  count : (invocations h).length ≤ if retry_class = .NonRetryableWrite then 1 else 2
  again : ∀ later conn result earlier, h = later ++ ⟨.func conn, result⟩ :: earlier →
    (∀ r, last_invocation earlier = some r → ∃ e, r = .error (.broken_connection e)) ∧
      Fresh conn earlier

theorem invocations_cons_eq {e : Event Call (Call.Answer ε ρ)} {h : PoolHistory ε ρ} :
    invocations (e :: h) = invocations h ∨
      ∃ conn result, e = ⟨.func conn, result⟩ ∧
        invocations (e :: h) = (conn, result) :: invocations h := by
  obtain ⟨call, answer⟩ := e
  cases call with
  | func conn => exact .inr ⟨conn, answer, rfl, rfl⟩
  | _ => exact .inl rfl

theorem attempts_of_kept {retry_class : RetryClass} {h : PoolHistory ε ρ}
    (hk : (contract retry_class).Kept h) : Attempts retry_class h := by
  constructor
  · induction h with
    | nil => exact Nat.zero_le _
    | cons e h ih =>
      obtain ⟨hguarantee, _, hk⟩ := hk
      rcases invocations_cons_eq (e := e) (h := h) with heq | ⟨conn, result, rfl, heq⟩
      · rw [heq]
        exact ih hk
      · rw [heq, List.length_cons]
        rcases hguarantee.first_or_again with hnone | ⟨hretry, conn', e', hone⟩
        · rw [hnone]
          split <;> simp
        · rw [hone, if_neg hretry]
          rfl
  · rintro later conn result earlier rfl
    obtain ⟨hagain, hfresh⟩ := (kept_split hk).1
    refine ⟨fun r hr => ?_, hfresh⟩
    unfold last_invocation at hr
    rcases hagain with hnone | ⟨_, conn', e, hone⟩
    · rw [hnone] at hr
      cases hr
    · rw [hone] at hr
      exact ⟨e, (Option.some.inj hr).symm⟩

/-! ## The laws -/

section Laws

variable {pool_size : Nat} {now : Time}
  {as : List (Threads.Label Call (Call.Answer ε ρ) RetryClass)}
  {w : Threads Call (Call.Answer ε ρ) PgPool RetryClass (Except (Exn ε) ρ)}

/-- The slots that the calls in progress hold. -/
def held_slots (w : Threads Call (Call.Answer ε ρ) PgPool RetryClass (Except (Exn ε) ρ)) :
    List Nat := w.running.flatMap fun t => held t.history

/-- Each slot is free, or held by one call in progress. -/
theorem slots_are_never_shared_or_leaked (hr : (pool ε ρ pool_size now).run as = some w) :
    (w.shared.free_list ++ held_slots w).Perm (List.range pool_size) ∧
      (w.running = [] → w.shared.free_list.Perm (List.range pool_size)) := by
  have hslots := ((discipline ε ρ pool_size now).holds hr).inv.slots
  have hheld : (w.histories.flatMap fun t => held t.2) = held_slots w := by
    unfold Threads.histories held_slots
    rw [List.flatMap_map]
  rw [hheld] at hslots
  refine ⟨hslots, fun hnone => ?_⟩
  unfold held_slots at hslots
  rwa [hnone, List.flatMap_nil, List.append_nil] at hslots

/-- What a connection brings on which everything goes well. -/
def all_well : (call : Call) → call.Answer Unit Nat
  | .post | .release _ | .write _ _ => ()
  | .acquire | .now => (0 : Nat)
  | .read _ => { conn := 0, created_at := 0, last_used_at := 0, last_validated_at := 0 }
  | .is_open _ => true
  | .connect => .ok 0
  | .select_1 _ => .ok ()
  | .func _ => .ok 7

/-- A call that goes from its start to its end, and one that gets the only slot after it. -/
def two_calls : List (Threads.Label Call (Call.Answer Unit Nat) RetryClass) :=
  [.spawn .ReadOnly, .spawn .NonRetryableWrite] ++ List.replicate 10 (.step 0 all_well) ++
    [.finish 0] ++ List.replicate 2 (.step 0 all_well)

theorem the_second_call_has_the_slot :
    ((pool Unit Nat 1 0).run two_calls).map held_slots = some [0] ∧
      ∀ w ∈ (pool Unit Nat 1 0).run two_calls,
        (w.shared.free_list ++ held_slots w).Perm (List.range 1) :=
  ⟨rfl, fun _ hw => (slots_are_never_shared_or_leaked hw).1⟩

/-- A result is the one of the last invocation, and an exception is the last one. -/
theorem functions_run_once_unless_retryable (hr : (pool ε ρ pool_size now).run as = some w) :
    (∀ t ∈ w.running, Attempts t.start t.history) ∧
      ∀ retry_class h r, (retry_class, h, r) ∈ w.ended → Attempts retry_class h ∧
        (∀ x, r = .ok x ↔ last_invocation h = some (.ok x)) ∧
        ∀ e, r = .error e → last_exception h = some e := by
  have hholds := (discipline ε ρ pool_size now).holds hr
  constructor
  · exact fun t ht => attempts_of_kept (hholds.kept t ht)
  · intro retry_class h r hmem
    obtain ⟨hk, hended⟩ := hholds.ended _ hmem
    exact ⟨attempts_of_kept hk, hended.returns, hended.throws⟩

/-- The connection 0 breaks under the function. -/
def breaks_once : (call : Call) → call.Answer Unit Nat
  | .func 0 => .error (.broken_connection ())
  | call => all_well call

def a_read : List (Threads.Label Call (Call.Answer Unit Nat) RetryClass) :=
  .spawn .ReadOnly :: List.replicate 18 (.step 0 breaks_once) ++ [.finish 0]

theorem a_read_is_tried_again :
    ((pool Unit Nat 1 0).run a_read).map
        (fun w => w.ended.map fun e => (invocations e.2.1, e.2.2)) =
      some [([(1, .ok 7), (0, .error (.broken_connection ()))], .ok 7)] ∧
      ∀ w ∈ (pool Unit Nat 1 0).run a_read, ∀ e ∈ w.ended, Attempts e.1 e.2.1 :=
  ⟨rfl, fun _ hw _ he => ((functions_run_once_unless_retryable hw).2 _ _ _ he).1⟩

end Laws

end loomic.pg_pool
