import RemotusHardware.Parse
import RemotusHardware.Syntax

/-! # From the file to the configuration

`ReadFile` of `main.cpp` reads `config.txt` in pieces (`Pieces`) and appends each of them, up to its
first NUL, to a string (`textOf_eq`); `parse()` begins by handing the string to the overload of
`picojson::parse` that reports an error only if `_parse` fails and is silent about what `_parse`
has left unread.  So code 2 is for a text that does not begin with a JSON value
(`readConfig_errorConfig_two`), and for no other. -/

namespace RemotusHardware

open CLib Scanner Picojson

/-! ### Reading the file -/

/-- What `fgets` reads into an array of `n + 1` bytes, and what it leaves. -/
def fgets : ℕ → List UInt8 → List UInt8 × List UInt8
  | 0, set => ([], set)
  | _ + 1, [] => ([], [])
  | n + 1, b :: set =>
      if b = 10 then ([b], set) else (b :: (fgets n set).1, (fgets n set).2)

/-- The loop of `ReadFile`: `s += A` appends `A` up to its first NUL. -/
def readFrom : ℕ → List UInt8 → List UInt8 → List UInt8
  | 0, _, s => s
  | k + 1, set, s =>
      if set = [] then s
      else readFrom k (fgets 1023 set).2 (s ++ (CString.ofMem (fgets 1023 set).1).bytes)

/-- `ReadFile()`, as far as the contents of an existing file are concerned: the string at `cs`. -/
def textOf (file : List UInt8) : CString := .ofMem (readFrom file.length file [])

/-- `ReadFile()`; without a file `fopen` returns NULL. -/
def ReadFile : Option (List UInt8) → Except Stop CString
  | none => errorConfig 1
  | some file => .ok (textOf file)

/-! ### Parsing the text -/

section
variable (round : ℚ → Double)

/-- The syntax check of `parse()`; the overload called drops what is left of the text. -/
def syntaxCheck (cs : CString) : Except Stop Value :=
  match Picojson.parse round cs.bytes with
  | some (v, _) => .ok v
  | none => errorConfig 2

/-- `ReadFile(); parse();` -/
def readConfig (file : Option (List UInt8)) : Except Stop Globals := do
  let cs ← ReadFile file
  let v ← syntaxCheck round cs
  parse v

/-- White space alone. -/
def Blank (s : List UInt8) : Prop := ∀ b ∈ s, isWhitespace b = true

end

/-! ### The pieces of the file -/

/-- A piece that ends where `fgets` stops: behind a line feed, or with the array full, or at the end
of the file. -/
structure Piece (n : ℕ) (p rest : List UInt8) : Prop where
  ne_nil : p ≠ []
  length_le : p.length ≤ n
  line : (10 : UInt8) ∉ p.dropLast
  stop : rest = [] ∨ p.length = n ∨ p.getLast? = some 10

/-- The pieces of a file, with arrays of 1024 bytes. -/
inductive Pieces : List UInt8 → List (List UInt8) → Prop
  | nil : Pieces [] []
  | cons {p rest : List UInt8} {pieces : List (List UInt8)} : Piece 1023 p rest →
      Pieces rest pieces → Pieces (p ++ rest) (p :: pieces)

/-- Every piece up to its first NUL. -/
def uptoNul (pieces : List (List UInt8)) : List UInt8 :=
  pieces.flatMap fun p => p.takeWhile (· ≠ 0)

theorem fgets_of_piece {n : ℕ} {p rest : List UInt8} (h : Piece n p rest) :
    fgets n (p ++ rest) = (p, rest) := by
  obtain ⟨hne, hle, hline, hstop⟩ := h
  induction p generalizing n with
  | nil => exact absurd rfl hne
  | cons b p ih =>
      obtain ⟨n, rfl⟩ : ∃ m, n = m + 1 := ⟨n - 1, by
        rw [List.length_cons] at hle
        omega⟩
      rw [List.cons_append, fgets]
      cases p with
      | nil =>
          split
          · rfl
          · rename_i hb
            have hlast : ¬ [b].getLast? = some 10 := by simpa using hb
            rcases hstop with rfl | hfull | hlf
            · cases n <;> rfl
            · obtain rfl : n = 0 := by simpa using hfull.symm
              rfl
            · exact absurd hlf hlast
      | cons c p =>
          have hb : ¬ b = 10 := fun h => hline (by simp [h])
          have hrest := ih (List.cons_ne_nil _ _) (Nat.le_of_succ_le_succ hle)
            (fun h => hline (List.mem_cons_of_mem _ h)) (by simpa using hstop)
          rw [if_neg hb, hrest]

theorem exists_piece {n : ℕ} (hn : 0 < n) {set : List UInt8} (h : set ≠ []) :
    ∃ p rest, set = p ++ rest ∧ Piece n p rest := by
  induction set generalizing n with
  | nil => exact absurd rfl h
  | cons b set ih =>
      by_cases hstop : b = 10 ∨ n = 1 ∨ set = []
      · refine ⟨[b], set, rfl, List.cons_ne_nil _ _, hn, by simp, ?_⟩
        rcases hstop with rfl | rfl | rfl
        · exact .inr (.inr rfl)
        · exact .inr (.inl rfl)
        · exact .inl rfl
      · push Not at hstop
        obtain ⟨hb, hn₁, hset⟩ := hstop
        obtain ⟨p, rest, rfl, hp⟩ := ih (n := n - 1) (by omega) hset
        obtain ⟨c, p, rfl⟩ := List.exists_cons_of_ne_nil hp.ne_nil
        have hle := hp.length_le
        refine ⟨b :: c :: p, rest, rfl, List.cons_ne_nil _ _, ?_, ?_, ?_⟩
        · rw [List.length_cons]
          omega
        · simpa [Ne.symm hb] using hp.line
        · refine hp.stop.imp_right (Or.imp ?_ ?_)
          · intro hfull
            rw [List.length_cons, hfull]
            omega
          · intro hlf
            rwa [List.getLast?_cons_cons]

theorem exists_pieces (file : List UInt8) : ∃ pieces, Pieces file pieces := by
  induction hn : file.length using Nat.strong_induction_on generalizing file with
  | _ n ih =>
      by_cases h : file = []
      · subst h
        exact ⟨[], .nil⟩
      · obtain ⟨p, rest, rfl, hp⟩ := exists_piece (show 0 < 1023 by decide) h
        have hpos := List.length_pos_iff.mpr hp.ne_nil
        obtain ⟨pieces, hpieces⟩ := ih rest.length (by
          rw [← hn, List.length_append]
          omega) rest rfl
        exact ⟨p :: pieces, .cons hp hpieces⟩

theorem readFrom_eq {set : List UInt8} {pieces : List (List UInt8)} (h : Pieces set pieces) :
    ∀ (k : ℕ) (s : List UInt8), set.length ≤ k → readFrom k set s = s ++ uptoNul pieces := by
  induction h with
  | nil =>
      intro k s _
      rw [uptoNul, List.flatMap_nil, List.append_nil]
      cases k <;> rfl
  | @cons p rest pieces hp _ ih =>
      intro k s hk
      have hpos := List.length_pos_iff.mpr hp.ne_nil
      rw [List.length_append] at hk
      obtain ⟨k, rfl⟩ : ∃ j, k = j + 1 := ⟨k - 1, by omega⟩
      have hset : p ++ rest ≠ [] := List.append_ne_nil_of_left_ne_nil hp.ne_nil rest
      rw [readFrom, if_neg hset, fgets_of_piece hp, ih k _ (by omega), List.append_assoc]
      rfl

theorem uptoNul_nonzero (pieces : List (List UInt8)) : (0 : UInt8) ∉ uptoNul pieces := by
  intro h
  obtain ⟨p, -, hp⟩ := List.mem_flatMap.mp h
  simpa using List.mem_takeWhile_imp hp

/-- The text of a file, however it is cut into pieces. -/
theorem textOf_eq {file : List UInt8} {pieces : List (List UInt8)} (h : Pieces file pieces) :
    (textOf file).bytes = uptoNul pieces := by
  rw [textOf, readFrom_eq h _ _ le_rfl, List.nil_append]
  exact CString.ofMem_bytes (uptoNul_nonzero pieces)

/-- Without a NUL nothing is cut off. -/
theorem uptoNul_nul_free {file : List UInt8} {pieces : List (List UInt8)} (h : Pieces file pieces)
    (h0 : (0 : UInt8) ∉ file) : uptoNul pieces = file := by
  induction h with
  | nil => rfl
  | @cons p rest pieces _ _ ih =>
      rw [List.mem_append, not_or] at h0
      rw [uptoNul, List.flatMap_cons, ← uptoNul, ih h0.2]
      exact congrArg (· ++ rest) (CString.ofMem_bytes h0.1)

theorem textOf_nul_free {file : List UInt8} (h : (0 : UInt8) ∉ file) :
    (textOf file).bytes = file := by
  obtain ⟨pieces, hpieces⟩ := exists_pieces file
  rw [textOf_eq hpieces, uptoNul_nul_free hpieces h]

/-! ### Where `parse` stops -/

section
variable {α β : Type}

/-- A function that stops in `errorConfig` does so with one of these codes. -/
def StopsAt (leds : List ℕ) (x : Except Stop α) : Prop := ∀ led, x = errorConfig led → led ∈ leds

theorem stopsAt_ok (leds : List ℕ) (a : α) : StopsAt leds (.ok a) := by
  intro led h
  cases h

theorem stopsAt_undefined (leds : List ℕ) (why : Undefined) :
    StopsAt leds (undefined why : Except Stop α) := by
  intro led h
  cases h

theorem stopsAt_errorConfig {leds : List ℕ} {led : ℕ} (h : led ∈ leds) :
    StopsAt leds (errorConfig led : Except Stop α) := by
  intro led' h'
  cases h'
  exact h

theorem StopsAt.mono {leds leds' : List ℕ} {x : Except Stop α} (h : StopsAt leds x)
    (hsub : ∀ led ∈ leds, led ∈ leds') : StopsAt leds' x := by
  intro led hx
  exact hsub led (h led hx)

theorem StopsAt.bind {leds : List ℕ} {x : Except Stop α} {f : α → Except Stop β}
    (hx : StopsAt leds x) (hf : ∀ a, StopsAt leds (f a)) : StopsAt leds (x >>= f) := by
  intro led h
  cases x with
  | ok a => exact hf a led h
  | error stop =>
      apply hx
      cases h
      rfl

theorem stopsAt_ite {leds : List ℕ} {c : Prop} [Decidable c] {x y : Except Stop α}
    (hx : StopsAt leds x) (hy : StopsAt leds y) : StopsAt leds (if c then x else y) := by
  by_cases h : c
  · rwa [if_pos h]
  · rwa [if_neg h]

end

section
variable (leds : List ℕ)

theorem get_stopsAt (v : Value) (key : String) : StopsAt leds (v.get key) := by
  apply stopsAt_ite
  · exact stopsAt_ok leds _
  · intro led h
    cases h

theorem getString_stopsAt (v : Value) : StopsAt leds v.getString := by
  cases v <;> first | exact stopsAt_ok leds _ | exact stopsAt_undefined leds _

theorem getDouble_stopsAt (v : Value) : StopsAt leds v.getDouble := by
  cases v <;> first | exact stopsAt_ok leds _ | exact stopsAt_undefined leds _

theorem getArray_stopsAt (v : Value) : StopsAt leds v.getArray := by
  cases v <;> first | exact stopsAt_ok leds _ | exact stopsAt_undefined leds _

theorem toInt_stopsAt (x : Double) : StopsAt leds x.toInt := by
  cases x with
  | finite q => exact stopsAt_ite (stopsAt_ok leds _) (stopsAt_undefined leds _)
  | infinite negative => exact stopsAt_undefined leds _

theorem pinAt_stopsAt (p : ℤ) : StopsAt leds (pinAt p) :=
  stopsAt_ite (stopsAt_ok leds _) (stopsAt_undefined leds _)

theorem strcpy_stopsAt (capacity : ℕ) (src : List UInt8) : StopsAt leds (strcpy capacity src) :=
  stopsAt_ite (stopsAt_ok leds _) (stopsAt_undefined leds _)

theorem isEmpty_stopsAt (v : Value) (key : String) : StopsAt leds (isEmpty v key) :=
  (get_stopsAt leds v key).bind fun w => (getString_stopsAt leds w).bind fun _ => stopsAt_ok leds _

theorem isZero_stopsAt (v : Value) (key : String) : StopsAt leds (isZero v key) :=
  (get_stopsAt leds v key).bind fun w => (getDouble_stopsAt leds w).bind fun x =>
    (toInt_stopsAt leds x).bind fun _ => stopsAt_ok leds _

theorem isNULL_stopsAt (v : Value) (key : String) : StopsAt leds (isNULL v key) :=
  (get_stopsAt leds v key).bind fun _ => stopsAt_ok leds _

theorem anyOf_stopsAt : ∀ {checks : List (Except Stop Bool)}, (∀ c ∈ checks, StopsAt leds c) →
    StopsAt leds (anyOf checks)
  | [], _ => stopsAt_ok leds false
  | c :: checks, h => by
      refine (h c List.mem_cons_self).bind fun b => stopsAt_ite (stopsAt_ok leds true) ?_
      exact anyOf_stopsAt fun c' hc' => h c' (List.mem_cons_of_mem _ hc')

end

theorem build_stopsAt (leds : List ℕ) (k : SensorKind) (p : ℤ) (e : Value) :
    StopsAt leds (build k p e) := by
  cases k with
  | sonar =>
      refine (get_stopsAt leds e "pin2").bind fun w => (getDouble_stopsAt leds w).bind fun x => ?_
      refine (toInt_stopsAt leds x).bind fun pAux => (pinAt_stopsAt leds p).bind fun a => ?_
      exact (pinAt_stopsAt leds pAux).bind fun b => stopsAt_ok leds _
  | _ => exact (pinAt_stopsAt leds p).bind fun a => stopsAt_ok leds _

theorem construct_stopsAt (sensor : CString) (p : ℤ) (e : Value) :
    StopsAt [4, 5] (construct sensor p e) := by
  cases hk : kindOf sensor with
  | none =>
      rw [construct_unknown hk]
      exact stopsAt_errorConfig (by decide)
  | some k =>
      rw [kindOf_eq_some hk, construct_name]
      exact build_stopsAt _ k p e

theorem parseSensor_stopsAt (e : Value) (t : Tables) : StopsAt [4, 5] (parseSensor e t) := by
  refine StopsAt.bind (anyOf_stopsAt _ ?_) fun bad =>
    stopsAt_ite (stopsAt_errorConfig (by decide)) ?_
  · simp only [sensorChecks, List.mem_cons, List.not_mem_nil, or_false, forall_eq_or_imp, forall_eq]
    exact ⟨isEmpty_stopsAt _ e _, isEmpty_stopsAt _ e _, isZero_stopsAt _ e _, isNULL_stopsAt _ e _,
      isNULL_stopsAt _ e _, isNULL_stopsAt _ e _⟩
  · refine (get_stopsAt _ e _).bind fun w => (getString_stopsAt _ w).bind fun sensor => ?_
    refine (get_stopsAt _ e _).bind fun w => (getString_stopsAt _ w).bind fun topic => ?_
    refine (get_stopsAt _ e _).bind fun w => (getDouble_stopsAt _ w).bind fun x => ?_
    refine (toInt_stopsAt _ x).bind fun p => (construct_stopsAt _ p e).bind fun o => ?_
    exact stopsAt_ok _ _

theorem parseSensors_stopsAt : ∀ (es : List Value) (t : Tables), StopsAt [4, 5] (parseSensors es t)
  | [], t => stopsAt_ok _ t
  | e :: es, t => (parseSensor_stopsAt e t).bind (parseSensors_stopsAt es)

/-- Of the codes of `errorConfig`, `parse` uses three once the text has passed the syntax check. -/
theorem parse_stopsAt (v : Value) : StopsAt [3, 4, 5] (parse v) := by
  refine (get_stopsAt _ v _).bind fun w => (getArray_stopsAt _ w).bind fun list => ?_
  refine StopsAt.bind (anyOf_stopsAt _ ?_) fun bad =>
    stopsAt_ite (stopsAt_errorConfig (by decide)) ?_
  · simp only [serverChecks, List.mem_cons, List.not_mem_nil, or_false, forall_eq_or_imp, forall_eq]
    exact ⟨isEmpty_stopsAt _ v _, isNULL_stopsAt _ v _, isZero_stopsAt _ v _, isNULL_stopsAt _ v _,
      isEmpty_stopsAt _ v _, isNULL_stopsAt _ v _, isEmpty_stopsAt _ v _, isNULL_stopsAt _ v _⟩
  · refine (get_stopsAt _ v _).bind fun w => (getString_stopsAt _ w).bind fun s => ?_
    apply (strcpy_stopsAt _ 20 s).bind
    intro server
    refine (get_stopsAt _ v _).bind fun w => (getDouble_stopsAt _ w).bind fun x => ?_
    apply (toInt_stopsAt _ x).bind
    intro port
    refine (get_stopsAt _ v _).bind fun w => (getString_stopsAt _ w).bind fun s => ?_
    apply (strcpy_stopsAt _ 20 s).bind
    intro user
    refine (get_stopsAt _ v _).bind fun w => (getString_stopsAt _ w).bind fun s => ?_
    apply (strcpy_stopsAt _ 20 s).bind
    intro pass
    exact ((parseSensors_stopsAt list _).mono (by simp)).bind fun t => stopsAt_ok _ _

/-! ### The syntax check -/

section
variable {round : ℚ → Double}

/-- Code 2 is for a text that does not begin with a JSON value. -/
theorem readConfig_errorConfig_two (file : List UInt8) :
    readConfig round (some file) = errorConfig 2 ↔
      Picojson.parse round (textOf file).bytes = none := by
  have hread : readConfig round (some file) = syntaxCheck round (textOf file) >>= parse := rfl
  rw [hread, syntaxCheck]
  cases h : Picojson.parse round (textOf file).bytes with
  | none => exact ⟨fun _ => rfl, fun _ => rfl⟩
  | some p =>
      constructor
      · intro hstop
        have := parse_stopsAt p.1 2 hstop
        simp at this
      · intro hnone
        cases hnone

theorem blank_nonzero {s : List UInt8} (h : Blank s) : (0 : UInt8) ∉ s := by
  intro h0
  exact whitespace_nonzero 0 (h 0 h0) rfl

theorem blank_ends {s : List UInt8} (h : Blank s) : Ends isNumberChar s := by
  intro b hb
  have hw := h b (List.mem_of_mem_head? hb)
  simp only [isWhitespace, Bool.or_eq_true, decide_eq_true_eq] at hw
  rcases hw with ((rfl | rfl) | rfl) | rfl <;> decide

/-- White space ahead of a value is skipped. -/
theorem parse_blank_append {before s r : List UInt8} {v : Value} (hb : Blank before)
    (h : Picojson.parse round s = some (v, r)) :
    Picojson.parse round (before ++ s) = some (v, r) := by
  obtain ⟨c, rfl, hc, -, -⟩ := parse_prefix round h
  obtain ⟨k, hk⟩ : ∃ k, (c ++ r).length = k + 1 := ⟨c.length + r.length - 1, by simp; omega⟩
  have htoken : token isWhitespace (before ++ (c ++ r)) = token isWhitespace (c ++ r) := by
    rw [token, token, List.dropWhile_append_of_pos hb]
  have hsame : parseValue round (k + 1) (before ++ (c ++ r)) =
      parseValue round (k + 1) (c ++ r) := by
    rw [parseValue]
    change (token isWhitespace _).bind _ = (token isWhitespace _).bind _
    rw [htoken]
  apply parse_fuel (k := k + 1)
  rw [hsame, ← hk]
  exact h

end

end RemotusHardware
