-- The offline queue in Redis (lpush and lrange_and_del of RedisClient.cpp).
-- Each call holds the mutex while it waits for its commands, so calls run one
-- after the other. The head of a list is its newest entry, and a result is
-- read from the end. Keys go to Redis as C strings.
import Loomic.Json
import Loomic.Lib.Coroutine
import Loomic.Lib.Machine

open coroutines loomic.frame machines
open loomic.json (bytes zero_notMem_bytes)

namespace loomic.offline_queue

/-! ## Redis -/

inductive Command
  | LPUSH (key data : Bytes)
  | EXPIRE (key : Bytes) (seconds : Nat)
  | LRANGE (key : Bytes) (start stop : Int)
  | DEL (key : Bytes)

inductive Reply
  | integer (n : Nat)
  | string (str : Bytes)
  | array (element : List Reply)

/-- The lists, newest entry first. A key that is not there has the empty list. -/
abbrev Redis := Bytes → List Bytes

/-- The entries from `start` to `stop`, where a negative index counts from the end. -/
def range (list : List Bytes) (start stop : Int) : List Bytes :=
  let first := if start < 0 then list.length + start else start
  let last := if stop < 0 then list.length + stop else stop
  (list.take (last + 1).toNat).drop first.toNat

/-- No time to live runs out, so `EXPIRE` changes nothing. -/
def Redis.execute (redis : Redis) : Command → Redis × Reply
  | .LPUSH key data =>
    (Function.update redis key (data :: redis key), .integer ((redis key).length + 1))
  | .EXPIRE key _ => (redis, .integer (if redis key = [] then 0 else 1))
  | .LRANGE key start stop => (redis, .array ((range (redis key) start stop).map .string))
  | .DEL key => (Function.update redis key [], .integer (if redis key = [] then 0 else 1))

/-! ## The client -/

/-- A null pointer is the reply to a command that fails. -/
abbrev RedisCoroutine := Coroutine Command fun _ => Option Reply

/-- What `%s` takes of a `std::string`. -/
def c_str (key : Bytes) : Bytes := key.takeWhile (· ≠ 0)

def lpush (key data : Bytes) : RedisCoroutine Unit :=
  .await (.LPUSH (c_str key) data) fun _ =>
    .await (.EXPIRE (c_str key) 604800) fun _ => .ret ()

/-- The loop over the elements of the reply, from the index below `i` down to the first. -/
def read_elements (element : List Reply) : Nat → List Bytes → List Bytes
  | 0, result => result
  | i + 1, result => read_elements element i (match element[i]? with
    | some (.string str) => result ++ [str]
    | _ => result)

def read_reply : Option Reply → List Bytes
  | some (.array element) => read_elements element element.length []
  | _ => []

def lrange_and_del (key : Bytes) : RedisCoroutine (List Bytes) :=
  .await (.LRANGE (c_str key) 0 (-1)) fun reply =>
    let result := read_reply reply
    if result.isEmpty then .ret result
    else .await (.DEL (c_str key)) fun _ => .ret result

/-- The commands of a call, while it holds the mutex. No command fails. -/
def perform {ρ : Type} : RedisCoroutine ρ → Redis → Option (ρ × Redis)
  | .ret r, redis => some (r, redis)
  | .throw, _ => none
  | .await command resume, redis =>
    perform (resume (some (redis.execute command).2)) (redis.execute command).1

inductive Call
  | lpush (key data : Bytes)
  | lrange_and_del (key : Bytes)

def Call.key : Call → Bytes
  | .lpush key _ => key
  | .lrange_and_del key => key

/-- The lists, and what `lrange_and_del` has returned, with the key that it was called with. -/
structure Client where
  redis : Redis
  returned : List (Bytes × List Bytes)

def Client.step (s : Client) : Call → Option Client
  | .lpush key data => (perform (lpush key data) s.redis).map fun (_, redis) =>
    { s with redis := redis }
  | .lrange_and_del key => (perform (lrange_and_del key) s.redis).map fun (result, redis) =>
    { redis := redis, returned := s.returned ++ [(key, result)] }

def client : Machine Client Call where
  start := { redis := fun _ => [], returned := [] }
  step := Client.step

/-! ## One call -/

theorem range_all (list : List Bytes) : range list 0 (-1) = list := by
  have hlast : ((list.length : Int) + -1 + 1).toNat = list.length := by omega
  unfold range
  simp only [Int.lt_irrefl, if_false, show (-1 : Int) < 0 from by decide, if_true, Int.toNat_zero,
    List.drop_zero]
  rw [hlast, List.take_length]

/-- The loop reads the elements below its index backwards. -/
theorem read_elements_eq (list : List Bytes) (i : Nat) (result : List Bytes) (h : i ≤ list.length) :
    read_elements (list.map .string) i result = result ++ (list.take i).reverse := by
  induction i generalizing result with
  | zero => simp [read_elements]
  | succ i ih =>
    have hget : (list.map Reply.string)[i]? = some (.string list[i]) := by
      simp [List.getElem?_eq_getElem (show i < list.length from h)]
    have htake : list.take (i + 1) = list.take i ++ [list[i]] :=
      List.take_succ_eq_append_getElem (by omega)
    rw [read_elements, hget, ih _ (by omega), htake, List.reverse_append, List.append_assoc]
    rfl

theorem read_reply_range (list : List Bytes) :
    read_reply (some (.array ((range list 0 (-1)).map .string))) = list.reverse := by
  rw [range_all]
  unfold read_reply
  dsimp only
  rw [List.length_map, read_elements_eq list _ _ (Nat.le_refl _), List.take_length, List.nil_append]

theorem perform_lpush (redis : Redis) (key data : Bytes) :
    perform (lpush key data) redis =
      some ((), Function.update redis (c_str key) (data :: redis (c_str key))) := rfl

/-- The list is taken whether or not there is something to delete. -/
theorem perform_lrange_and_del (redis : Redis) (key : Bytes) :
    perform (lrange_and_del key) redis =
      some ((redis (c_str key)).reverse, Function.update redis (c_str key) []) := by
  have hread : read_reply (some (redis.execute (.LRANGE (c_str key) 0 (-1))).2) =
      (redis (c_str key)).reverse := read_reply_range _
  unfold lrange_and_del perform
  dsimp only
  rw [hread]
  split_ifs with hempty
  · have hnil : redis (c_str key) = [] := by simpa using hempty
    unfold perform
    congr 2
    exact (Function.update_eq_self_iff.mpr hnil.symm).symm
  · rfl

/-- What a call does to the lists. -/
def Call.apply (redis : Redis) : Call → Redis
  | .lpush key data => Function.update redis (c_str key) (data :: redis (c_str key))
  | .lrange_and_del key => Function.update redis (c_str key) []

/-- What a call returns from the lists, and with which key. -/
def Call.result (redis : Redis) : Call → List (Bytes × List Bytes)
  | .lpush _ _ => []
  | .lrange_and_del key => [(key, (redis (c_str key)).reverse)]

theorem step_eq (s : Client) (call : Call) : s.step call =
    some { redis := call.apply s.redis, returned := s.returned ++ call.result s.redis } := by
  cases call with
  | lpush key data =>
    dsimp only [Client.step]
    rw [perform_lpush, Option.map_some]
    simp [Call.apply, Call.result]
  | lrange_and_del key =>
    dsimp only [Client.step]
    rw [perform_lrange_and_del, Option.map_some]
    rfl

/-- A call leaves the lists of other keys alone. -/
theorem apply_other {redis : Redis} {call : Call} {k : Bytes} (hk : k ≠ c_str call.key) :
    call.apply redis k = redis k := by
  cases call with
  | lpush key data => exact Function.update_of_ne hk _ _
  | lrange_and_del key => exact Function.update_of_ne hk _ _

/-! ## A whole run -/

/-- The byte strings of the calls of `lpush` whose key meets `p`. -/
def pushed (p : Bytes → Bool) (calls : List Call) : List Bytes :=
  calls.flatMap fun
    | .lpush key data => if p key then [data] else []
    | .lrange_and_del _ => []

/-- All that the calls of `lrange_and_del` whose key meets `p` have returned, in their order. -/
def Client.popped (s : Client) (p : Bytes → Bool) : List Bytes :=
  s.returned.flatMap fun (key, result) => if p key then result else []

/-- What one list has had pushed is what it has given back, and what it still holds. -/
theorem fifo_run {calls : List Call} {s : Client} (hr : client.run calls = some s) (k : Bytes) :
    s.popped (c_str · = k) ++ (s.redis k).reverse = pushed (c_str · = k) calls := by
  refine Machine.run_induction
    (I := fun calls s => s.popped (c_str · = k) ++ (s.redis k).reverse = pushed (c_str · = k) calls)
    rfl ?_ hr
  intro calls s call s' _ ih hs
  obtain rfl := Option.some.inj ((step_eq s call).symm.trans hs)
  unfold pushed at ih ⊢
  unfold Client.popped at ih ⊢
  dsimp only at ih ⊢
  rw [List.flatMap_append, List.flatMap_append, ← ih]
  by_cases hk : k = c_str call.key
  · subst hk
    cases call with
    | lpush key data => simp [Call.result, Call.apply, Call.key]
    | lrange_and_del key => simp [Call.result, Call.apply, Call.key]
  · rw [apply_other hk]
    cases call with
    | lpush key data =>
      have hne : c_str key ≠ k := fun h => hk h.symm
      simp [Call.result, hne]
    | lrange_and_del key =>
      have hne : c_str key ≠ k := fun h => hk h.symm
      simp [Call.result, hne]

theorem run_isSome (calls : List Call) : ∃ s, client.run calls = some s := by
  induction calls using List.reverseRecOn with
  | nil => exact ⟨_, rfl⟩
  | append_singleton calls call ih =>
    obtain ⟨s, hs⟩ := ih
    exact ⟨_, client.run_step hs (step_eq s call)⟩

/-- The keys of what was returned are keys of the calls. -/
theorem keys_returned {calls : List Call} {s : Client} (hr : client.run calls = some s) :
    ∀ entry ∈ s.returned, ∃ call ∈ calls, call.key = entry.1 := by
  refine Machine.run_induction
    (I := fun calls s => ∀ entry ∈ s.returned, ∃ call ∈ calls, call.key = entry.1)
    (by simp [client]) ?_ hr
  intro calls s call s' _ ih hs
  obtain rfl := Option.some.inj ((step_eq s call).symm.trans hs)
  intro entry hentry
  rcases List.mem_append.mp hentry with hold | hnew
  · obtain ⟨c, hc, hkey⟩ := ih entry hold
    exact ⟨c, List.mem_append_left _ hc, hkey⟩
  · refine ⟨call, List.mem_append_right _ (List.mem_singleton.mpr rfl), ?_⟩
    cases call with
    | lpush key data => simp [Call.result] at hnew
    | lrange_and_del key =>
      obtain rfl : entry = _ := List.mem_singleton.mp hnew
      rfl

theorem pushed_congr {p q : Bytes → Bool} {calls : List Call}
    (h : ∀ call ∈ calls, p call.key = q call.key) : pushed p calls = pushed q calls := by
  apply congrArg List.flatten
  apply List.map_congr_left
  intro call hcall
  have hkey := h call hcall
  cases call with
  | lpush key data =>
    dsimp only [Call.key] at hkey ⊢
    rw [hkey]
  | lrange_and_del key => rfl

theorem popped_congr {p q : Bytes → Bool} {s : Client}
    (h : ∀ entry ∈ s.returned, p entry.1 = q entry.1) : s.popped p = s.popped q := by
  apply congrArg List.flatten
  apply List.map_congr_left
  intro entry hentry
  dsimp only
  rw [h entry hentry]

/-! ## The law -/

/-- The key of a user's offline queue. -/
def offline_key (user_id : UserId) : Bytes := bytes ("offline:" ++ toString user_id.toNat)

theorem c_str_eq_self {key : Bytes} (h : 0 ∉ key) : c_str key = key := by
  apply List.takeWhile_eq_self_iff.mpr
  intro b hb
  have hne : b ≠ 0 := fun hzero => h (hzero ▸ hb)
  simpa using hne

theorem c_str_offline_key (user_id : UserId) :
    c_str (offline_key user_id) = offline_key user_id := by
  apply c_str_eq_self
  apply zero_notMem_bytes
  intro c hc
  have hlist : (toString user_id.toNat).toList = Nat.toDigits 10 user_id.toNat := Nat.toList_repr
  rw [String.toList_append, hlist] at hc
  rcases List.mem_append.mp hc with hprefix | hdigits
  · have hall : "offline:".toList.all fun c => 0 < c.toNat ∧ c.toNat < 128 := by decide
    exact of_decide_eq_true (List.all_eq_true.mp hall c hprefix)
  · have hdigit := Nat.isDigit_of_mem_toDigits (by decide) (by decide) hdigits
    have hzero : '0'.toNat = 48 := rfl
    have hnine : '9'.toNat = 57 := rfl
    rw [Char.isDigit_iff_toNat] at hdigit
    omega

/-- What a key has had pushed: its results one after the other, then what the list still holds,
oldest first. -/
def Fifo (calls : List Call) (s : Client) (key : Bytes) : Prop :=
  s.popped (· = key) ++ (s.redis (c_str key)).reverse = pushed (· = key) calls

theorem fifo_of_apart {calls : List Call} {s : Client} (hr : client.run calls = some s)
    {key : Bytes} (hkey : ∀ call ∈ calls, c_str call.key = c_str key → call.key = key) :
    Fifo calls s key := by
  have hcalls : ∀ call ∈ calls, (call.key = key ↔ c_str call.key = c_str key) :=
    fun call hcall => ⟨congrArg c_str, hkey call hcall⟩
  have hpushed : pushed (· = key) calls = pushed (c_str · = c_str key) calls :=
    pushed_congr fun call hcall => decide_eq_decide.mpr (hcalls call hcall)
  have hpopped : s.popped (· = key) = s.popped (c_str · = c_str key) := by
    apply popped_congr
    intro entry hentry
    obtain ⟨call, hcall, hentry⟩ := keys_returned hr entry hentry
    rw [← hentry]
    exact decide_eq_decide.mpr (hcalls call hcall)
  unfold Fifo
  rw [hpushed, hpopped]
  exact fifo_run hr (c_str key)

/-- All calls run to their end. A key is a queue when no other key of the calls is the same C
string, and the keys of users always are. A call changes no other list. -/
theorem the_offline_queue_is_a_fifo (calls : List Call) :
    ∃ s, client.run calls = some s ∧
      (∀ key, (∀ call ∈ calls, c_str call.key = c_str key → call.key = key) → Fifo calls s key) ∧
      ((∀ call ∈ calls, ∃ user_id, call.key = offline_key user_id) →
        ∀ user_id, Fifo calls s (offline_key user_id)) ∧
      ∀ call s', client.step s call = some s' → ∀ key, c_str key ≠ c_str call.key →
        s'.redis (c_str key) = s.redis (c_str key) := by
  obtain ⟨s, hr⟩ := run_isSome calls
  refine ⟨s, hr, fun key hkey => fifo_of_apart hr hkey, ?_, ?_⟩
  · intro husers user_id
    apply fifo_of_apart hr
    intro call hcall heq
    obtain ⟨v, hv⟩ := husers call hcall
    rw [hv, c_str_offline_key, c_str_offline_key] at heq
    rw [hv, heq]
  · intro call s' hs key hkey
    obtain rfl := Option.some.inj ((step_eq s call).symm.trans hs)
    exact apply_other hkey

/-- Two entries, which are taken out together, and a third one. -/
theorem three_entries_come_back :
    let key := offline_key 7
    let calls : List Call :=
      [.lpush key [1], .lpush key [2], .lrange_and_del key, .lpush key [3], .lrange_and_del key]
    ∃ s, client.run calls = some s ∧ Fifo calls s key := by
  intro key calls
  obtain ⟨s, hr, _, husers, _⟩ := the_offline_queue_is_a_fifo calls
  refine ⟨s, hr, husers ?_ 7⟩
  intro call hcall
  refine ⟨7, ?_⟩
  revert hcall
  simp only [calls, List.mem_cons, List.not_mem_nil, or_false]
  rintro (rfl | rfl | rfl | rfl | rfl) <;> rfl

/-- The letter a, alone and with a NUL byte after it: one list in Redis. -/
theorem a_nul_byte_mixes_two_queues :
    ¬ ∀ calls s, client.run calls = some s → ∀ key, Fifo calls s key := by
  intro hall
  have hfifo := hall [.lpush [0x61, 0x00] [1], .lrange_and_del [0x61]] _ rfl [0x61]
  revert hfifo
  unfold Fifo
  decide

end loomic.offline_queue
