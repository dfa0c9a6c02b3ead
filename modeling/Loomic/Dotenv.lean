-- The loader of the .env file (Config.cpp). Each line that defines a variable
-- sets it unless it is set, so the first line wins. The template also has
-- comments behind values, which the loader keeps in the value.
import Mathlib.Data.List.DropRight
import Mathlib.Data.List.TakeWhile

namespace loomic.dotenv

/-! ## The code -/

/-- The octets of a `std::string`. -/
abbrev Text := List Char

/-- What the octets are up to the first NUL. -/
def c_str (s : Text) : Text := s.takeWhile fun c => c ≠ '\x00'

/-- The variables of the process. A name ends at its NUL, so it has none. -/
structure Env where
  get : Text → Option Text
  nul_free : ∀ name, '\x00' ∈ name → get name = none

theorem nul_not_mem_c_str (s : Text) : '\x00' ∉ c_str s := by
  intro h
  have := List.mem_takeWhile_imp h
  simp at this

/-- `setenv` with `overwrite` 0. It refuses an empty name. -/
def Env.setenv (env : Env) (key value : Text) : Env :=
  if c_str key = [] ∨ (env.get (c_str key)).isSome then env
  else
    { get := fun name => if name = c_str key then some (c_str value) else env.get name
      nul_free := fun name h => by
        have hne : name ≠ c_str key := fun heq => nul_not_mem_c_str key (heq ▸ h)
        rw [if_neg hne]
        exact env.nul_free name h }

/-- `std::getline` until the end of the file. -/
def getlines (content : Text) : List Text :=
  let lines := content.splitOn '\n'
  if lines.getLast? = some [] then lines.dropLast else lines

/-- Strip trailing \r (Windows line endings). -/
def strip_cr (line : Text) : Text :=
  if line.getLast? = some '\r' then line.dropLast else line

def is_blank (c : Char) : Bool := c = ' ' || c = '\t'

def ltrim (s : Text) : Text := s.dropWhile is_blank

/-- It leaves a string of blanks alone, where `find_last_not_of` gives `npos`. -/
def rtrim (s : Text) : Text := if s.all is_blank then s else s.rdropWhile is_blank

def is_quote (c : Char) : Bool := c = '"' || c = '\''

/-- Strip optional surrounding quotes from value. -/
def unquote (value : Text) : Text :=
  if 2 ≤ value.length ∧
      ((value.head? = some '"' ∧ value.getLast? = some '"') ∨
        (value.head? = some '\'' ∧ value.getLast? = some '\'')) then
    (value.drop 1).take (value.length - 2)
  else value

/-- The key and the value of a line, as `load_dotenv` passes them to `setenv`. -/
def read_line (line : Text) : Option (Text × Text) :=
  let line := strip_cr line
  -- Skip blank lines and comments
  if line = [] ∨ line.head? = some '#' then none
  else if '=' ∉ line then none
  else
    let key := rtrim (ltrim (line.takeWhile fun c => c ≠ '='))
    let value := unquote (rtrim (ltrim ((line.dropWhile fun c => c ≠ '=').drop 1)))
    if key = [] then none else some (key, value)

/-- One turn of the loop. -/
def load_line (env : Env) (line : Text) : Env :=
  match read_line line with
  | none => env
  | some (key, value) => env.setenv key value

/-- `Config::load_dotenv`. The file is optional. -/
def load_dotenv (env : Env) (file : Option Text) : Env :=
  match file with
  | none => env
  | some content => (getlines content).foldl load_line env

/-! ## What the template means -/

/-- A text without the blanks around it. -/
def trim (s : Text) : Text := (s.dropWhile is_blank).rdropWhile is_blank

/-- A text up to its comment: a blank with a `#` behind it, outside of every pair of
quotes. The first argument is the quote that closes the pair. -/
def uncomment : Option Char → Text → Text
  | _, [] => []
  | some q, c :: rest => c :: uncomment (if c = q then none else some q) rest
  | none, c :: rest =>
    if is_blank c ∧ rest.head? = some '#' then []
    else c :: uncomment (if is_quote c ∧ c ∈ rest then some c else none) rest

example : uncomment none "\"a # b\" # c".toList = "\"a # b\"".toList := by decide

/-- A line that defines a variable. -/
structure Definition where
  key : Text
  /-- What stands behind the `=`. -/
  rest : Text

def Definition.value (d : Definition) : Text := unquote (trim (uncomment none d.rest))

/-- What a line defines. -/
def defines (line : Text) : Option Definition :=
  let line := strip_cr line
  let key := trim (line.takeWhile fun c => c ≠ '=')
  if line.head? = some '#' ∨ '=' ∉ line ∨ key = [] then none
  else some { key, rest := (line.dropWhile fun c => c ≠ '=').drop 1 }

/-- The first line of the file that defines a variable. -/
def first_definition (content name : Text) : Option Definition :=
  ((getlines content).filterMap defines).find? fun d => d.key = name

/-- The environment that the template means: what is set stays, and every other variable
has the value of its first line. -/
def meant (env : Env) (content name : Text) : Option Text :=
  (env.get name).or ((first_definition content name).map Definition.value)

/-- A definition with no comment behind the value and no NUL. -/
structure Definition.Plain (d : Definition) : Prop where
  no_comment : uncomment none d.rest = d.rest
  key_nul : '\x00' ∉ d.key
  value_nul : '\x00' ∉ unquote (trim d.rest)

/-! ## The loop -/

theorem rtrim_ltrim (s : Text) : rtrim (ltrim s) = trim s := by
  unfold rtrim ltrim trim
  split
  · rename_i hall
    have hempty : s.dropWhile is_blank = [] := by
      by_contra hne
      have hhead := List.head_dropWhile_not is_blank hne
      rw [List.all_eq_true.1 hall _ (List.head_mem hne)] at hhead
      cases hhead
    simp [hempty]
  · rfl

/-- The loop reads the lines that define something. -/
theorem read_line_eq (line : Text) :
    read_line line = (defines line).map fun d => (d.key, unquote (trim d.rest)) := by
  unfold read_line defines
  simp only [rtrim_ltrim]
  by_cases hcomment : (strip_cr line).head? = some '#'
  · simp [hcomment]
  by_cases heq : '=' ∈ strip_cr line
  · have hne : strip_cr line ≠ [] := List.ne_nil_of_mem heq
    by_cases hkey : trim ((strip_cr line).takeWhile fun c => c ≠ '=') = [] <;>
      simp_all
  · simp [hcomment, heq]

theorem get_setenv (env : Env) (key value name : Text) :
    (env.setenv key value).get name =
      (env.get name).or (if c_str key ≠ [] ∧ c_str key = name then some (c_str value)
        else none) := by
  unfold Env.setenv
  by_cases hkey : c_str key = []
  · simp [hkey]
  by_cases hname : c_str key = name
  · subst hname
    cases hget : env.get (c_str key) <;> simp [hkey, hget]
  · by_cases hset : (env.get (c_str key)).isSome
    · simp [hset, hname]
    · simp [hkey, hset, hname, Ne.symm hname]

/-- What a definition sets the variable to. -/
def Definition.loaded (d : Definition) : Text := c_str (unquote (trim d.rest))

/-- What the definition gives a variable in the loop. -/
def Definition.load (d : Definition) (name : Text) : Option Text :=
  if c_str d.key ≠ [] ∧ c_str d.key = name then some d.loaded else none

theorem get_load_line (env : Env) (line name : Text) :
    (load_line env line).get name =
      (env.get name).or ((defines line).bind fun d => d.load name) := by
  unfold load_line
  rw [read_line_eq]
  cases defines line with
  | none => simp
  | some d => exact get_setenv env d.key (unquote (trim d.rest)) name

/-- A variable keeps its value, or it has the first one that a line gives it. -/
theorem get_load_dotenv (env : Env) (content name : Text) :
    (load_dotenv env (some content)).get name =
      (env.get name).or
        (((getlines content).filterMap defines).findSome? fun d => d.load name) := by
  unfold load_dotenv
  simp only
  generalize getlines content = lines
  induction lines generalizing env with
  | nil => simp
  | cons line lines ih =>
    rw [List.foldl_cons, ih, get_load_line]
    cases hline : defines line with
    | none => simp [hline]
    | some d => cases hload : d.load name <;> simp [hline, hload]

/-! ## The value of a definition -/

/-- A comment is cut off at a blank with a `#` behind it. -/
theorem uncomment_eq_or (closing : Option Char) (s : Text) :
    uncomment closing s = s ∨
      ∃ b rest, is_blank b ∧ s = uncomment closing s ++ b :: '#' :: rest := by
  induction s generalizing closing with
  | nil => cases closing <;> simp [uncomment]
  | cons c cs ih =>
    cases closing with
    | some q =>
      rcases ih (if c = q then none else some q) with h | ⟨b, rest, hb, h⟩
      · exact .inl (by rw [uncomment, h])
      · exact .inr ⟨b, rest, hb, by rw [uncomment, List.cons_append, ← h]⟩
    | none =>
      rw [uncomment]
      split
      · rename_i hblank
        obtain ⟨rest, rfl⟩ : ∃ rest, cs = '#' :: rest := by
          cases cs with
          | nil => simp at hblank
          | cons d ds => exact ⟨ds, by simpa using hblank.2⟩
        exact .inr ⟨c, rest, hblank.1, by simp⟩
      · rcases ih (if is_quote c ∧ c ∈ cs then some c else none) with h | ⟨b, rest, hb, h⟩
        · exact .inl (by rw [h])
        · exact .inr ⟨b, rest, hb, by rw [List.cons_append, ← h]⟩

theorem c_str_eq {s : Text} (h : '\x00' ∉ s) : c_str s = s := by
  refine List.takeWhile_eq_self_iff.2 fun c hc => ?_
  have hne : c ≠ '\x00' := fun heq => h (heq ▸ hc)
  simpa using hne

theorem c_str_append {s t : Text} (h : '\x00' ∉ s) : c_str (s ++ t) = s ++ c_str t := by
  have hall : ∀ c ∈ s, decide (c ≠ '\x00') = true := by
    intro c hc
    have hne : c ≠ '\x00' := fun heq => h (heq ▸ hc)
    simpa using hne
  exact List.takeWhile_append_of_pos hall

/-- A value stays as it is, or it loses the quotes around it. -/
theorem unquote_eq_or (s : Text) :
    unquote s = s ∨ ∃ q mid, is_quote q ∧ s = q :: (mid ++ [q]) ∧ unquote s = mid := by
  by_cases h : 2 ≤ s.length ∧ ((s.head? = some '"' ∧ s.getLast? = some '"') ∨
      (s.head? = some '\'' ∧ s.getLast? = some '\''))
  · obtain ⟨q, hq, hhead, hlast⟩ :
        ∃ q, is_quote q = true ∧ s.head? = some q ∧ s.getLast? = some q := by
      rcases h.2 with h | h
      · exact ⟨'"', by decide, h⟩
      · exact ⟨'\'', by decide, h⟩
    obtain ⟨t, rfl⟩ := List.head?_eq_some_iff.1 hhead
    obtain ⟨mid, hmid⟩ : ∃ mid, t = mid ++ [q] := by
      have hne : t ≠ [] := by
        rintro rfl
        simp at h
      rw [List.getLast?_cons_of_ne_nil hne] at hlast
      exact List.getLast?_eq_some_iff.1 hlast
    subst hmid
    refine .inr ⟨q, mid, hq, rfl, ?_⟩
    rw [unquote, if_pos h]
    simp
  · exact .inl (by rw [unquote, if_neg h])

theorem length_unquote_le (s : Text) : (unquote s).length ≤ s.length := by
  rcases unquote_eq_or s with h | ⟨q, mid, -, hs, h⟩
  · rw [h]
  · rw [h, hs]
    simp
    omega

/-- The quotes that are removed are no NUL, and no `#`. -/
theorem mem_unquote {s : Text} {c : Char} (hc : is_quote c = false) (h : c ∈ s) :
    c ∈ unquote s := by
  rcases unquote_eq_or s with heq | ⟨q, mid, hq, rfl, heq⟩
  · rwa [heq]
  · have hne : c ≠ q := by
      rintro rfl
      simp [hq] at hc
    simpa [heq, hne] using h

/-- Nor are the blanks. -/
theorem mem_trim {s : Text} {c : Char} (hc : is_blank c = false) (h : c ∈ s) : c ∈ trim s := by
  have hleft : c ∈ s.dropWhile is_blank := by
    rw [← List.takeWhile_append_dropWhile (p := is_blank) (l := s)] at h
    rcases List.mem_append.1 h with h | h
    · rw [List.mem_takeWhile_imp h] at hc
      cases hc
    · exact h
  rw [← List.rdropWhile_append_rtakeWhile (p := is_blank) (l := s.dropWhile is_blank)] at hleft
  rcases List.mem_append.1 hleft with h | h
  · exact h
  · rw [List.mem_rtakeWhile_imp h] at hc
    cases hc

theorem rdropWhile_comment (s tail : Text) :
    (s ++ '#' :: tail).rdropWhile is_blank = s ++ '#' :: tail.rdropWhile is_blank := by
  induction tail using List.reverseRecOn with
  | nil => exact List.rdropWhile_concat_neg is_blank s '#' (by decide)
  | append_singleton tail c ih =>
    have hassoc : s ++ '#' :: (tail ++ [c]) = (s ++ '#' :: tail) ++ [c] := by simp
    rw [hassoc, List.rdropWhile_concat, List.rdropWhile_concat, ih]
    split <;> simp

/-- With a comment a value keeps its `#` and, up to one quote, all that stands before it. -/
theorem length_le_loaded {s tail : Text} (h : '\x00' ∉ s) :
    max s.length 1 ≤ (c_str (unquote (s ++ '#' :: tail))).length := by
  have hlong : ∀ t : Text, '\x00' ∉ t → ∀ rest : Text,
      t.length + 1 ≤ (c_str (t ++ '#' :: rest)).length := by
    intro t ht rest
    have hassoc : t ++ '#' :: rest = (t ++ ['#']) ++ rest := by simp
    rw [hassoc, c_str_append (by simpa using ht)]
    simp
  rcases unquote_eq_or (s ++ '#' :: tail) with heq | ⟨q, mid, hq, hs, heq⟩
  · have := hlong s h tail
    rw [heq]
    omega
  · -- The `#` is neither of the two quotes.
    have hne : '#' ≠ q := by
      rintro rfl
      simp [is_quote] at hq
    cases s with
    | nil => simp [hne] at hs
    | cons c s =>
      simp only [List.cons_append, List.cons.injEq] at hs
      obtain ⟨rfl, hs⟩ := hs
      obtain ⟨rest, rfl⟩ : ∃ rest, tail = rest ++ [c] := by
        rcases List.eq_nil_or_concat tail with rfl | ⟨rest, d, rfl⟩
        · have := congrArg List.getLast? hs
          simp [hne] at this
        · have hlast := congrArg List.getLast? hs
          simp [List.getLast?_cons] at hlast
          exact ⟨rest, by simp [hlast]⟩
      have hmid : mid = s ++ '#' :: rest := by
        have hassoc : s ++ '#' :: (rest ++ [c]) = (s ++ '#' :: rest) ++ [c] := by simp
        rw [hassoc] at hs
        exact (List.append_cancel_right hs).symm
      have := hlong s (fun hmem => h (List.mem_cons_of_mem _ hmem)) rest
      rw [heq, hmid, List.length_cons]
      omega

/-- What is trimmed with its comment keeps more before the `#` than without it. -/
theorem trim_comment (s : Text) {b : Char} (hb : is_blank b) (tail : Text) :
    ∃ kept, trim (s ++ b :: '#' :: tail) = kept ++ '#' :: tail.rdropWhile is_blank ∧
      (∀ c ∈ kept, c ∈ s ∨ c = b) ∧ (trim s).length < max kept.length 1 := by
  have hle : (trim s).length ≤ (s.dropWhile is_blank).length :=
    (List.rdropWhile_prefix is_blank _).length_le
  have hsharp : is_blank '#' = false := by decide
  unfold trim at *
  rw [List.dropWhile_append]
  split
  · -- Nothing stands before the comment: the value begins with the `#`.
    rename_i hempty
    rw [List.isEmpty_iff.1 hempty] at hle ⊢
    refine ⟨[], ?_, by simp, by simp⟩
    rw [← rdropWhile_comment]
    simp [hb, hsharp]
  · refine ⟨s.dropWhile is_blank ++ [b], ?_, fun c hc => ?_, by simp; omega⟩
    · rw [← rdropWhile_comment]
      simp
    · rcases List.mem_append.1 hc with h | h
      · exact .inl ((List.dropWhile_sublist is_blank).mem h)
      · exact .inr (List.mem_singleton.1 h)

/-- A comment in the value is never without effect. -/
theorem loaded_comment_ne (s : Text) {b : Char} (hb : is_blank b) (tail : Text) :
    c_str (unquote (trim (s ++ b :: '#' :: tail))) ≠ unquote (trim s) := by
  intro heq
  have hnul : '\x00' ∉ s := by
    intro hmem
    have hvalue := mem_unquote (by decide) (mem_trim (by decide) hmem)
    exact nul_not_mem_c_str _ (heq ▸ hvalue)
  have hbnul : '\x00' ≠ b := by
    rintro rfl
    simp [is_blank] at hb
  obtain ⟨kept, htrim, hkept, hlt⟩ := trim_comment s hb tail
  have hlong := @length_le_loaded _ (tail.rdropWhile is_blank)
    fun hmem => (hkept _ hmem).elim hnul hbnul
  have hvalue := length_unquote_le (trim s)
  rw [← htrim, heq] at hlong
  omega

/-- The loop sets the value that is meant exactly for a value with no comment and no NUL. -/
theorem loaded_eq_value_iff (d : Definition) :
    d.loaded = d.value ↔ uncomment none d.rest = d.rest ∧ '\x00' ∉ unquote (trim d.rest) := by
  unfold Definition.loaded Definition.value
  constructor
  · intro heq
    rcases uncomment_eq_or none d.rest with h | ⟨b, tail, hb, h⟩
    · refine ⟨h, ?_⟩
      rw [h] at heq
      rw [← heq]
      exact nul_not_mem_c_str _
    · refine absurd ?_ (loaded_comment_ne (uncomment none d.rest) hb tail)
      rwa [← h]
  · rintro ⟨hcomment, hnul⟩
    rw [hcomment, c_str_eq hnul]

/-! ## When the environment is the one that is meant -/

theorem defines_key_ne {line : Text} {d : Definition} (h : defines line = some d) : d.key ≠ [] := by
  unfold defines at h
  dsimp only at h
  split at h
  · cases h
  · rename_i hno
    cases h
    exact fun hkey => hno (.inr (.inr hkey))

/-- The loop sets no variable whose name has a NUL. -/
theorem load_nul (d : Definition) {name : Text} (h : '\x00' ∈ name) : d.load name = none := by
  unfold Definition.load
  rw [if_neg]
  rintro ⟨-, rfl⟩
  exact nul_not_mem_c_str _ h

/-- A definition whose key has no NUL sets the variable of its key. -/
theorem load_eq {d : Definition} (hkey : d.key ≠ []) (hnul : '\x00' ∉ d.key) (name : Text) :
    d.load name = if d.key = name then some d.loaded else none := by
  simp [Definition.load, c_str_eq hnul, hkey]

theorem findSome?_load {ds : List Definition} (hkey : ∀ d ∈ ds, d.key ≠ [])
    (hnul : ∀ d ∈ ds, '\x00' ∉ d.key) (name : Text) :
    ds.findSome? (fun d => d.load name) =
      (ds.find? fun d => d.key = name).map Definition.loaded := by
  induction ds with
  | nil => simp
  | cons d ds ih =>
    have hrest := ih (fun d hd => hkey d (List.mem_cons_of_mem _ hd))
      (fun d hd => hnul d (List.mem_cons_of_mem _ hd))
    rw [List.findSome?_cons, List.find?_cons,
      load_eq (hkey d List.mem_cons_self) (hnul d List.mem_cons_self)]
    by_cases hname : d.key = name <;> simp [hname, hrest]

/-- The definitions of a file. -/
def definitions (content : Text) : List Definition := (getlines content).filterMap defines

theorem definitions_key_ne {content : Text} {d : Definition} (hd : d ∈ definitions content) :
    d.key ≠ [] := by
  obtain ⟨line, -, hline⟩ := List.mem_filterMap.1 hd
  exact defines_key_ne hline

theorem first_definition_of_mem {content : Text} {d : Definition}
    (hd : d ∈ definitions content) :
    ∃ d', first_definition content d.key = some d' ∧ d'.key = d.key := by
  have hfound : (first_definition content d.key).isSome :=
    List.find?_isSome.2 ⟨d, hd, decide_eq_true rfl⟩
  obtain ⟨d', hd'⟩ := Option.isSome_iff_exists.1 hfound
  exact ⟨d', hd', by simpa using List.find?_some hd'⟩

/-- With no NUL in any key the loop and the template agree on the line. -/
theorem load_dotenv_first (env : Env) {content : Text}
    (hnul : ∀ d ∈ definitions content, '\x00' ∉ d.key) (name : Text) :
    (load_dotenv env (some content)).get name =
      (env.get name).or ((first_definition content name).map Definition.loaded) := by
  rw [get_load_dotenv, first_definition]
  exact congrArg _ (findSome?_load (fun d hd => definitions_key_ne hd) hnul name)

/-- A NUL in a key is never without effect either. -/
theorem keys_nul_free_of_meant {env : Env} {content : Text}
    (h : ∀ name, (load_dotenv env (some content)).get name = meant env content name) :
    ∀ d ∈ definitions content, '\x00' ∉ d.key := by
  intro d hd hmem
  obtain ⟨d', hd', -⟩ := first_definition_of_mem hd
  have hset := h d.key
  rw [get_load_dotenv, meant, env.nul_free _ hmem, hd'] at hset
  have hnone : ((getlines content).filterMap defines).findSome? (fun d' => d'.load d.key) = none :=
    List.findSome?_eq_none_iff.2 fun d' _ => load_nul d' hmem
  simp [hnone] at hset

/-- The loader gives every variable what the template means exactly if the first definition
of each variable that is not set has no comment behind its value (and no NUL). -/
theorem dotenv_is_meant_iff (env : Env) (content : Text) :
    (∀ name, (load_dotenv env (some content)).get name = meant env content name) ↔
      ∀ name d, env.get name = none → first_definition content name = some d → d.Plain := by
  constructor
  · intro hmeant name d hunset hd
    have hnul := keys_nul_free_of_meant hmeant
    have hset := hmeant name
    rw [load_dotenv_first env hnul, meant, hunset, hd] at hset
    have hvalue := (loaded_eq_value_iff d).1 (by simpa using hset)
    exact ⟨hvalue.1, hnul d (List.mem_of_find?_eq_some hd), hvalue.2⟩
  · intro hplain name
    have hnul : ∀ d ∈ definitions content, '\x00' ∉ d.key := by
      intro d hd hmem
      obtain ⟨d', hd', heq⟩ := first_definition_of_mem hd
      exact (hplain d.key d' (env.nul_free _ hmem) hd').key_nul (heq ▸ hmem)
    rw [load_dotenv_first env hnul, meant]
    cases hunset : env.get name with
    | some value => simp
    | none =>
      cases hd : first_definition content name with
      | none => simp
      | some d =>
        have h := hplain name d hunset hd
        simp [(loaded_eq_value_iff d).2 ⟨h.no_comment, h.value_nul⟩]

/-- An environment with no variable. -/
def Env.empty : Env := { get := fun _ => none, nul_free := fun _ _ => rfl }

/-- The line of the template: the comment is a part of the value. -/
theorem the_template_line_is_not_meant :
    let content := "LOOMIC_REDIS_SSL=true               # set true for Redis Cloud\n".toList
    (load_dotenv Env.empty (some content)).get "LOOMIC_REDIS_SSL".toList =
        some "true               # set true for Redis Cloud".toList ∧
      meant Env.empty content "LOOMIC_REDIS_SSL".toList = some "true".toList := by
  decide

end loomic.dotenv
