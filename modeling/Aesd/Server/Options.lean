/-
The command line of the server: `parseArgs` (aesdsocket.c) and `getopt`.

The arguments are the elements of `argv` behind the program name. `getopt` is
that of the C library: it passes over operands and goes on behind them, or stops
at the first one when POSIXLY_CORRECT is set; `--` ends the options.
-/

import Aesd.Server.SeekCommand

namespace Aesd.Server

open Driver

/-! ### getopt -/

/-- `nextchar` is what is left of the element being scanned, `rest` are the
elements behind it. -/
structure Getopt where
  nextchar : Bytes
  rest : List Bytes
  deriving DecidableEq, Repr

/-- The return value, `none` for -1, with `optarg` and `optopt`. -/
structure GetoptReturn where
  opt : Option UInt8
  optarg : Bytes
  optopt : UInt8
  deriving DecidableEq, Repr

def optionKind (optstring : Bytes) (char : UInt8) : Option Bool :=
  -- a colon and a semicolon are never options
  if char = 58 ∨ char = 59 then none
  else
    match optstring.dropWhile (fun other => other ≠ char) with
    | [] => none
    | _ :: behind => some (decide (behind.head? = some 58))

/-- The next element that holds options, without its dash. -/
def nextElement (posixlyCorrect : Bool) : List Bytes → Option (Bytes × List Bytes)
  | [] => none
  | arg :: later =>
      match arg with
      | [45, 45] => none
      | 45 :: char :: chars => some (char :: chars, later)
      | _ => if posixlyCorrect then none else nextElement posixlyCorrect later

/-- One option character; `?` is returned for an unknown one and for one whose
argument is missing. -/
def takeOption (optstring : Bytes) (char : UInt8) (chars : Bytes) (rest : List Bytes) :
    GetoptReturn × Getopt :=
  match optionKind optstring char with
  | none => ({ opt := some 63, optarg := [], optopt := char }, { nextchar := chars, rest := rest })
  | some false =>
      ({ opt := some char, optarg := [], optopt := char }, { nextchar := chars, rest := rest })
  | some true =>
      match chars, rest with
      | [], [] => ({ opt := some 63, optarg := [], optopt := char }, { nextchar := [], rest := [] })
      | [], arg :: later =>
          ({ opt := some char, optarg := arg, optopt := char }, { nextchar := [], rest := later })
      | text, rest =>
          ({ opt := some char, optarg := text, optopt := char }, { nextchar := [], rest := rest })

def getopt (posixlyCorrect : Bool) (optstring : Bytes) (state : Getopt) : GetoptReturn × Getopt :=
  match state.nextchar with
  | char :: chars => takeOption optstring char chars state.rest
  | [] =>
      match nextElement posixlyCorrect state.rest with
      | some (char :: chars, later) => takeOption optstring char chars later
      | _ => ({ opt := none, optarg := [], optopt := 0 }, state)

/-! ### parseArgs -/

structure Options where
  port : UInt16
  daemonize : Bool
  deriving DecidableEq, Repr

/-- The initialiser in `main`. -/
def Options.default : Options := { port := 9000, daemonize := false }

/-- `strtol(text, NULL, 10)` -/
def strtol (text : Bytes) : Int :=
  match scanDecimal text with
  | none => 0
  | some (value, _) => value

def toPort (value : Int) : UInt16 := UInt16.ofInt value

/-- How `parseArgs` ends: it returns, or it exits with EXIT_FAILURE after one of
two messages. -/
inductive Parsed where
  | options (options : Options)
  | unknown (opt optopt : UInt8)
  | usage
  | unfinished
  deriving DecidableEq, Repr

def optstring : Bytes := [100, 112, 58]

def parseArgsLoop (posixlyCorrect : Bool) : (fuel : Nat) → Getopt → Options → Parsed
  | 0, _, _ => .unfinished
  | fuel + 1, state, options =>
      let (ret, next) := getopt posixlyCorrect optstring state
      match ret.opt with
      | none => .options options
      | some opt =>
          if opt = 112 then
            parseArgsLoop posixlyCorrect fuel next
              { options with port := toPort (strtol ret.optarg) }
          else if opt = 100 then
            parseArgsLoop posixlyCorrect fuel next { options with daemonize := true }
          else if opt = 63 ∨ opt = 104 then .unknown opt ret.optopt
          else .usage

def Getopt.size (state : Getopt) : Nat :=
  state.nextchar.length + (state.rest.map fun arg => arg.length + 1).sum

def parseArgs (posixlyCorrect : Bool) (args : List Bytes) : Parsed :=
  parseArgsLoop posixlyCorrect (Getopt.size { nextchar := [], rest := args } + 1)
    { nextchar := [], rest := args } Options.default

/-! ### What getopt returns for `dp:` -/

theorem optionKind_dp (char : UInt8) :
    optionKind optstring char =
      if char = 100 then some false else if char = 112 then some true else none := by
  unfold optionKind optstring
  by_cases isD : char = 100
  · subst isD
    decide
  · by_cases isP : char = 112
    · subst isP
      decide
    · by_cases isColon : char = 58
      · subst isColon
        decide
      · have notD : (100 : UInt8) ≠ char := fun same => isD same.symm
        have notP : (112 : UInt8) ≠ char := fun same => isP same.symm
        have notColon : (58 : UInt8) ≠ char := fun same => isColon same.symm
        simp [isD, isP, notD, notP, notColon]

section Loop

variable {posixlyCorrect : Bool} {fuel : Nat} {options : Options}

theorem loop_of_takeOption {state : Getopt} {char : UInt8} {chars : Bytes} {rest : List Bytes}
    (next : getopt posixlyCorrect optstring state = takeOption optstring char chars rest) :
    parseArgsLoop posixlyCorrect (fuel + 1) state options =
      parseArgsLoop posixlyCorrect (fuel + 1) { nextchar := char :: chars, rest := rest } options := by
  have scanned : getopt posixlyCorrect optstring { nextchar := char :: chars, rest := rest } =
      takeOption optstring char chars rest := rfl
  unfold parseArgsLoop
  rw [next, scanned]

theorem loop_d (chars : Bytes) (rest : List Bytes) :
    parseArgsLoop posixlyCorrect (fuel + 1) { nextchar := 100 :: chars, rest := rest } options =
      parseArgsLoop posixlyCorrect fuel { nextchar := chars, rest := rest }
        { options with daemonize := true } := by
  have kind : optionKind optstring 100 = some false := by decide
  rw [parseArgsLoop]
  simp only [getopt, takeOption, kind]
  rfl

theorem loop_p_attached {text : Bytes} (some_text : text ≠ []) (rest : List Bytes) :
    parseArgsLoop posixlyCorrect (fuel + 1) { nextchar := 112 :: text, rest := rest } options =
      parseArgsLoop posixlyCorrect fuel { nextchar := [], rest := rest }
        { options with port := toPort (strtol text) } := by
  have kind : optionKind optstring 112 = some true := by decide
  obtain ⟨first, later, rfl⟩ := List.exists_cons_of_ne_nil some_text
  rw [parseArgsLoop]
  simp only [getopt, takeOption, kind]
  rfl

theorem loop_p_separate (text : Bytes) (rest : List Bytes) :
    parseArgsLoop posixlyCorrect (fuel + 1) { nextchar := [112], rest := text :: rest } options =
      parseArgsLoop posixlyCorrect fuel { nextchar := [], rest := rest }
        { options with port := toPort (strtol text) } := by
  have kind : optionKind optstring 112 = some true := by decide
  rw [parseArgsLoop]
  simp only [getopt, takeOption, kind]
  rfl

theorem loop_p_missing :
    parseArgsLoop posixlyCorrect (fuel + 1) { nextchar := [112], rest := [] } options =
      .unknown 63 112 := by
  have kind : optionKind optstring 112 = some true := by decide
  rw [parseArgsLoop]
  simp only [getopt, takeOption, kind]
  rfl

theorem loop_unknown {char : UInt8} (notD : char ≠ 100) (notP : char ≠ 112) (chars : Bytes)
    (rest : List Bytes) :
    parseArgsLoop posixlyCorrect (fuel + 1) { nextchar := char :: chars, rest := rest } options =
      .unknown 63 char := by
  have kind : optionKind optstring char = none := by
    rw [optionKind_dp, if_neg notD, if_neg notP]
  rw [parseArgsLoop]
  simp only [getopt, takeOption, kind]
  rfl

/-! ### Elements -/

/-- An element that is not an option: it has no dash, or nothing behind it. -/
def isOperand : Bytes → Bool
  | 45 :: _ :: _ => false
  | _ => true

theorem nextElement_operand {arg : Bytes} (operand : isOperand arg = true) (later : List Bytes) :
    nextElement posixlyCorrect (arg :: later) =
      if posixlyCorrect then none else nextElement posixlyCorrect later := by
  conv_lhs => unfold nextElement
  split
  · cases operand
  · cases operand
  · rfl

theorem nextElement_element {char : UInt8} {chars : Bytes} (notDashes : char :: chars ≠ [45])
    (later : List Bytes) :
    nextElement posixlyCorrect ((45 :: char :: chars) :: later) = some (char :: chars, later) := by
  unfold nextElement
  split
  · next same =>
      exact absurd (List.cons.inj same).2 notDashes
  · next same =>
      obtain ⟨rfl, rfl⟩ := List.cons.inj (List.cons.inj same).2
      rfl
  · next other =>
      exact absurd rfl (other char chars)

theorem nextElement_nonempty {rest later : List Bytes} {chars : Bytes}
    (found : nextElement posixlyCorrect rest = some (chars, later)) : chars ≠ [] := by
  induction rest with
  | nil => cases found
  | cons arg rest ih =>
      unfold nextElement at found
      split at found
      · cases found
      · cases found
        exact List.cons_ne_nil _ _
      · split at found
        · cases found
        · exact ih found

def Ends (posixlyCorrect : Bool) : List Bytes → Prop
  | [] => True
  | arg :: _ => arg = [45, 45] ∨ (posixlyCorrect = true ∧ isOperand arg = true)

theorem nextElement_ends {tail : List Bytes} (ends : Ends posixlyCorrect tail) :
    nextElement posixlyCorrect tail = none := by
  cases tail with
  | nil => rfl
  | cons arg later =>
      rcases ends with dashes | ⟨posix, operand⟩
      · rw [dashes, nextElement]
      · rw [nextElement_operand operand, if_pos posix]

theorem loop_stops {rest : List Bytes} (nothing : nextElement posixlyCorrect rest = none) :
    parseArgsLoop posixlyCorrect (fuel + 1) { nextchar := [], rest := rest } options =
      .options options := by
  have stops : getopt posixlyCorrect optstring { nextchar := [], rest := rest } =
      ({ opt := none, optarg := [], optopt := 0 }, { nextchar := [], rest := rest }) := by
    unfold getopt
    rw [nothing]
  rw [parseArgsLoop, stops]

theorem loop_operand {arg : Bytes} (operand : isOperand arg = true)
    (permutes : posixlyCorrect = false) (later : List Bytes) :
    parseArgsLoop posixlyCorrect (fuel + 1) { nextchar := [], rest := arg :: later } options =
      parseArgsLoop posixlyCorrect (fuel + 1) { nextchar := [], rest := later } options := by
  have skipped : nextElement posixlyCorrect (arg :: later) = nextElement posixlyCorrect later := by
    rw [nextElement_operand operand, permutes]
    rfl
  cases found : nextElement posixlyCorrect later with
  | none =>
      rw [loop_stops found, loop_stops (skipped.trans found)]
  | some element =>
      obtain ⟨chars, rest⟩ := element
      obtain ⟨char, chars, rfl⟩ := List.exists_cons_of_ne_nil (nextElement_nonempty found)
      have next {args : List Bytes}
          (finds : nextElement posixlyCorrect args = some (char :: chars, rest)) :
          getopt posixlyCorrect optstring { nextchar := [], rest := args } =
            takeOption optstring char chars rest := by
        unfold getopt
        rw [finds]
      rw [loop_of_takeOption (next found), loop_of_takeOption (next (skipped.trans found))]

theorem loop_element {char : UInt8} {chars : Bytes} (notDashes : char :: chars ≠ [45])
    (later : List Bytes) :
    parseArgsLoop posixlyCorrect (fuel + 1)
        { nextchar := [], rest := (45 :: char :: chars) :: later } options =
      parseArgsLoop posixlyCorrect (fuel + 1) { nextchar := char :: chars, rest := later }
        options := by
  apply loop_of_takeOption
  unfold getopt
  rw [nextElement_element notDashes]

/-! ### Fuel -/

theorem loop_more {state : Getopt} (finishes : parseArgsLoop posixlyCorrect fuel state options ≠
      .unfinished) :
    parseArgsLoop posixlyCorrect (fuel + 1) state options =
      parseArgsLoop posixlyCorrect fuel state options := by
  induction fuel generalizing state options with
  | zero => exact absurd rfl finishes
  | succ fuel ih =>
      rw [parseArgsLoop] at finishes ⊢
      rw [parseArgsLoop]
      dsimp only at finishes ⊢
      split
      · rfl
      · rename_i opt returned
        rw [returned] at finishes
        dsimp only at finishes
        split
        · rename_i isP
          rw [if_pos isP] at finishes
          exact ih finishes
        · rename_i notP
          rw [if_neg notP] at finishes
          split
          · rename_i isD
            rw [if_pos isD] at finishes
            exact ih finishes
          · rfl

theorem loop_at_least {state : Getopt} {more : Nat} (enough : fuel ≤ more)
    (finishes : parseArgsLoop posixlyCorrect fuel state options ≠ .unfinished) :
    parseArgsLoop posixlyCorrect more state options =
      parseArgsLoop posixlyCorrect fuel state options := by
  obtain ⟨extra, rfl⟩ := Nat.exists_eq_add_of_le enough
  induction extra with
  | zero => rfl
  | succ extra ih =>
      have same := ih (Nat.le_add_right fuel extra)
      rw [← same] at finishes
      exact (loop_more finishes).trans same

theorem cluster_cases (char : UInt8) (chars : Bytes) (rest : List Bytes) :
    (char = 100) ∨ (char = 112 ∧ chars ≠ []) ∨
      (∃ text later, char = 112 ∧ chars = [] ∧ rest = text :: later) ∨
      (char = 112 ∧ chars = [] ∧ rest = []) ∨ (char ≠ 100 ∧ char ≠ 112) := by
  by_cases isD : char = 100
  · exact Or.inl isD
  · by_cases isP : char = 112
    · right
      cases chars with
      | cons first text => exact Or.inl ⟨isP, List.cons_ne_nil _ _⟩
      | nil =>
          cases rest with
          | nil => exact Or.inr (Or.inr (Or.inl ⟨isP, rfl, rfl⟩))
          | cons text later => exact Or.inr (Or.inl ⟨text, later, isP, rfl, rfl⟩)
    · exact Or.inr (Or.inr (Or.inr (Or.inr ⟨isD, isP⟩)))

/-- Every element that is neither an operand nor `--` holds option characters. -/
theorem element_cases (arg : Bytes) :
    isOperand arg = true ∨ arg = [45, 45] ∨
      ∃ char chars, arg = 45 :: char :: chars ∧ char :: chars ≠ [45] := by
  by_cases operand : isOperand arg = true
  · exact Or.inl operand
  · right
    unfold isOperand at operand
    split at operand
    · rename_i char chars
      by_cases dashes : char :: chars = [45]
      · exact Or.inl (by rw [dashes])
      · exact Or.inr ⟨char, chars, rfl, dashes⟩
    · exact absurd rfl operand

def Parsed.Settled : Parsed → Prop
  | .options _ => True
  | .unknown opt _ => opt = 63
  | _ => False

theorem Parsed.Settled.finishes {result : Parsed} (settled : result.Settled) :
    result ≠ .unfinished := by
  intro unfinished
  rw [unfinished] at settled
  exact settled

theorem cluster_settles
    (shorter : ∀ (state : Getopt) (options : Options), state.size < fuel →
      (parseArgsLoop posixlyCorrect fuel state options).Settled)
    {char : UInt8} {chars : Bytes} {rest : List Bytes}
    (enough : Getopt.size { nextchar := char :: chars, rest := rest } < fuel + 1) :
    (parseArgsLoop posixlyCorrect (fuel + 1) { nextchar := char :: chars, rest := rest }
      options).Settled := by
  simp only [Getopt.size, List.length_cons] at enough
  rcases cluster_cases char chars rest with
    rfl | ⟨rfl, some_text⟩ | ⟨text, later, rfl, rfl, rfl⟩ | ⟨rfl, rfl, rfl⟩ | ⟨notD, notP⟩
  · rw [loop_d]
    apply shorter
    simp only [Getopt.size]
    omega
  · rw [loop_p_attached some_text]
    apply shorter
    simp only [Getopt.size, List.length_nil]
    omega
  · rw [loop_p_separate]
    apply shorter
    simp only [Getopt.size, List.length_nil, List.map_cons, List.sum_cons] at enough ⊢
    omega
  · rw [loop_p_missing]
    rfl
  · rw [loop_unknown notD notP]
    rfl

theorem loop_settles (posixlyCorrect : Bool) (fuel : Nat) (state : Getopt) (options : Options)
    (enough : state.size < fuel) : (parseArgsLoop posixlyCorrect fuel state options).Settled := by
  induction fuel generalizing state options with
  | zero => exact absurd enough (Nat.not_lt_zero _)
  | succ fuel ih =>
      obtain ⟨nextchar, rest⟩ := state
      cases nextchar with
      | cons char chars => exact cluster_settles ih enough
      | nil =>
          induction rest with
          | nil =>
              rw [loop_stops rfl]
              trivial
          | cons arg later later_ih =>
              simp only [Getopt.size, List.length_nil, List.map_cons, List.sum_cons] at enough later_ih
              rcases element_cases arg with operand | rfl | ⟨char, chars, rfl, notDashes⟩
              · cases permutes : posixlyCorrect with
                | false =>
                    rw [loop_operand operand rfl]
                    subst permutes
                    exact later_ih (by omega)
                | true =>
                    rw [loop_stops]
                    · trivial
                    · rw [nextElement_operand operand]
                      rfl
              · rw [loop_stops rfl]
                trivial
              · rw [loop_element notDashes]
                apply cluster_settles ih
                simp only [Getopt.size, List.length_cons] at enough ⊢
                omega

theorem parseArgs_settles (posixlyCorrect : Bool) (args : List Bytes) :
    (parseArgs posixlyCorrect args).Settled :=
  loop_settles posixlyCorrect _ _ _ (Nat.lt_succ_self _)

theorem parseArgs_eq {args : List Bytes}
    (finishes : parseArgsLoop posixlyCorrect fuel { nextchar := [], rest := args } Options.default ≠
      .unfinished) :
    parseArgs posixlyCorrect args =
      parseArgsLoop posixlyCorrect fuel { nextchar := [], rest := args } Options.default := by
  have settled := parseArgs_settles posixlyCorrect args
  unfold parseArgs at settled ⊢
  rcases Nat.le_total fuel (Getopt.size { nextchar := [], rest := args } + 1) with less | more
  · exact loop_at_least less finishes
  · exact (loop_at_least more settled.finishes).symm

end Loop

/-! ### Command lines -/

/-- What a command line is made of. Flags may stand in front of `p` in its
element, and the port may stand in the same element or be the next one. -/
inductive Item where
  | operand (arg : Bytes)
  | flags (more : Nat)
  | attached (count : Nat) (text : Bytes)
  | separate (count : Nat) (text : Bytes)
  deriving DecidableEq, Repr

def Item.args : Item → List Bytes
  | .operand arg => [arg]
  | .flags more => [45 :: List.replicate (more + 1) 100]
  | .attached count text => [45 :: (List.replicate count 100 ++ 112 :: text)]
  | .separate count text => [45 :: (List.replicate count 100 ++ [112]), text]

def Item.Valid (posixlyCorrect : Bool) : Item → Prop
  | .operand arg => posixlyCorrect = false ∧ isOperand arg = true
  | .attached _ text => text ≠ []
  | _ => True

def Options.flagged (options : Options) (flags : Nat) : Options :=
  { options with daemonize := options.daemonize || decide (0 < flags) }

def Options.withPort (options : Options) (text : Bytes) : Options :=
  { options with port := toPort (strtol text) }

def Item.apply (options : Options) : Item → Options
  | .operand _ => options
  | .flags more => options.flagged (more + 1)
  | .attached count text => (options.flagged count).withPort text
  | .separate count text => (options.flagged count).withPort text

section Items

variable {posixlyCorrect : Bool} {fuel : Nat} {options : Options}

theorem flagged_zero (options : Options) : options.flagged 0 = options := by
  cases options
  simp [Options.flagged]

theorem flagged_succ (options : Options) (flags : Nat) :
    Options.flagged { options with daemonize := true } flags = options.flagged (flags + 1) := by
  simp [Options.flagged]

theorem loop_flags (flags : Nat) (chars : Bytes) (rest : List Bytes) :
    parseArgsLoop posixlyCorrect (fuel + flags)
        { nextchar := List.replicate flags 100 ++ chars, rest := rest } options =
      parseArgsLoop posixlyCorrect fuel { nextchar := chars, rest := rest }
        (options.flagged flags) := by
  induction flags generalizing options with
  | zero => rw [flagged_zero, List.replicate_zero, List.nil_append, Nat.add_zero]
  | succ flags ih =>
      rw [List.replicate_succ, List.cons_append, ← Nat.add_assoc, loop_d, ih, flagged_succ]

theorem element_of_chars {flags : Nat} {chars : Bytes} (clean : chars = [] → 0 < flags)
    (notDash : chars.head? ≠ some 45) (rest : List Bytes) :
    parseArgsLoop posixlyCorrect (fuel + 1)
        { nextchar := [], rest := (45 :: (List.replicate flags 100 ++ chars)) :: rest } options =
      parseArgsLoop posixlyCorrect (fuel + 1)
        { nextchar := List.replicate flags 100 ++ chars, rest := rest } options := by
  cases flags with
  | zero =>
      cases chars with
      | nil => exact absurd (clean rfl) (Nat.lt_irrefl 0)
      | cons char chars =>
          apply loop_element
          intro same
          apply notDash
          rw [(List.cons.inj same).1]
          rfl
  | succ flags =>
      apply loop_element
      intro same
      have impossible := (List.cons.inj same).1
      revert impossible
      decide

/-- An item is read, and its settings are made. -/
theorem loop_item {item : Item} (valid : item.Valid posixlyCorrect) {rest : List Bytes}
    {result : Parsed} (finishes : result ≠ .unfinished)
    (reads : parseArgsLoop posixlyCorrect fuel { nextchar := [], rest := rest }
      (item.apply options) = result) :
    ∃ fuel, parseArgsLoop posixlyCorrect fuel { nextchar := [], rest := item.args ++ rest }
      options = result := by
  have positive : ∃ less, fuel = less + 1 := by
    cases fuel with
    | zero => exact absurd reads.symm finishes
    | succ less => exact ⟨less, rfl⟩
  obtain ⟨less, rfl⟩ := positive
  cases item with
  | operand arg =>
      refine ⟨less + 1, ?_⟩
      rw [← reads]
      exact loop_operand valid.2 valid.1 rest
  | flags more =>
      refine ⟨less + 1 + (more + 1), ?_⟩
      rw [← reads]
      have element := @element_of_chars posixlyCorrect (less + 1 + more) options (more + 1) []
        (fun _none => Nat.succ_pos more) (fun impossible => by cases impossible) rest
      rw [List.append_nil] at element
      have flags := @loop_flags posixlyCorrect (less + 1) options (more + 1) [] rest
      rw [List.append_nil] at flags
      exact element.trans flags
  | attached flags text =>
      refine ⟨less + 1 + 1 + flags, ?_⟩
      rw [← reads]
      have element := @element_of_chars posixlyCorrect (less + 1 + flags) options flags (112 :: text)
        (fun impossible => by cases impossible) (fun impossible => by cases impossible) rest
      have order : less + 1 + 1 + flags = less + 1 + flags + 1 := by omega
      rw [order]
      apply element.trans
      rw [← order, loop_flags, loop_p_attached valid]
      rfl
  | separate flags text =>
      refine ⟨less + 1 + 1 + flags, ?_⟩
      rw [← reads]
      have element := @element_of_chars posixlyCorrect (less + 1 + flags) options flags [112]
        (fun impossible => by cases impossible) (fun impossible => by cases impossible) (text :: rest)
      have order : less + 1 + 1 + flags = less + 1 + flags + 1 := by omega
      rw [order]
      apply element.trans
      rw [← order, loop_flags, loop_p_separate]
      rfl

theorem loop_items {items : List Item} (valid : ∀ item ∈ items, item.Valid posixlyCorrect)
    {tail : List Bytes} (ends : Ends posixlyCorrect tail) (options : Options) :
    ∃ fuel, parseArgsLoop posixlyCorrect fuel
        { nextchar := [], rest := items.flatMap Item.args ++ tail } options =
      .options (items.foldl Item.apply options) := by
  induction items generalizing options with
  | nil => exact ⟨1, loop_stops (nextElement_ends ends)⟩
  | cons item items ih =>
      obtain ⟨fuel, reads⟩ := ih (fun other member => valid other (List.mem_cons_of_mem item member))
        (item.apply options)
      rw [List.flatMap_cons, List.append_assoc]
      apply loop_item (valid item List.mem_cons_self) _ reads
      exact fun impossible => Parsed.noConfusion impossible

/-- An element that is read without a complaint: its characters, the elements
left and the options made. -/
inductive Cluster (options : Options) (rest : List Bytes) : Bytes → List Bytes → Options → Prop where
  | flags (count : Nat) :
      Cluster options rest (List.replicate count 100) rest (options.flagged count)
  | attached (count : Nat) (text : Bytes) (some_text : text ≠ []) :
      Cluster options rest (List.replicate count 100 ++ 112 :: text) rest
        ((options.flagged count).withPort text)
  | separate (count : Nat) (text : Bytes) (later : List Bytes) (next : rest = text :: later) :
      Cluster options rest (List.replicate count 100 ++ [112]) later
        ((options.flagged count).withPort text)

theorem Cluster.cons {rest tail : List Bytes} {chars : Bytes} {made : Options}
    (cluster : Cluster { options with daemonize := true } rest chars tail made) :
    Cluster options rest (100 :: chars) tail made := by
  cases cluster with
  | flags count =>
      rw [flagged_succ]
      exact Cluster.flags (count + 1)
  | attached count text some_text =>
      rw [flagged_succ]
      exact Cluster.attached (count + 1) text some_text
  | separate count text later next =>
      rw [flagged_succ]
      exact Cluster.separate (count + 1) text tail next

theorem cluster_of_options {chars : Bytes} {rest : List Bytes} {final : Options}
    (reads : parseArgsLoop posixlyCorrect fuel { nextchar := chars, rest := rest } options =
      .options final) :
    ∃ fuel tail made, Cluster options rest chars tail made ∧
      parseArgsLoop posixlyCorrect fuel { nextchar := [], rest := tail } made = .options final := by
  induction chars generalizing fuel options with
  | nil =>
      refine ⟨fuel, rest, options, ?_, reads⟩
      have none := @Cluster.flags options rest 0
      rw [flagged_zero] at none
      exact none
  | cons char chars ih =>
      cases fuel with
      | zero => cases reads
      | succ fuel =>
          rcases cluster_cases char chars rest with
            rfl | ⟨rfl, some_text⟩ | ⟨text, later, rfl, rfl, rfl⟩ | ⟨rfl, rfl, rfl⟩ | ⟨notD, notP⟩
          · rw [loop_d] at reads
            obtain ⟨less, tail, made, cluster, later⟩ := ih reads
            exact ⟨less, tail, made, cluster.cons, later⟩
          · rw [loop_p_attached some_text] at reads
            have shape := @Cluster.attached options rest 0 chars some_text
            rw [flagged_zero] at shape
            exact ⟨fuel, rest, _, shape, reads⟩
          · rw [loop_p_separate] at reads
            have shape := @Cluster.separate options _ 0 text later rfl
            rw [flagged_zero] at shape
            exact ⟨fuel, later, _, shape, reads⟩
          · rw [loop_p_missing] at reads
            cases reads
          · rw [loop_unknown notD notP] at reads
            cases reads

/-- What a command line means. -/
structure Reads (posixlyCorrect : Bool) (args : List Bytes) (options final : Options)
    (items : List Item) (tail : List Bytes) : Prop where
  shape : args = items.flatMap Item.args ++ tail
  valid : ∀ item ∈ items, item.Valid posixlyCorrect
  ends : Ends posixlyCorrect tail
  settings : final = items.foldl Item.apply options

theorem Reads.cons {args tail : List Bytes} {final : Options} {items : List Item} (item : Item)
    (valid : item.Valid posixlyCorrect)
    (later : Reads posixlyCorrect args (item.apply options) final items tail) :
    Reads posixlyCorrect (item.args ++ args) options final (item :: items) tail := by
  constructor
  · rw [later.shape, List.flatMap_cons, List.append_assoc]
  · intro other member
    rcases List.mem_cons.mp member with same | member
    · rw [same]
      exact valid
    · exact later.valid other member
  · exact later.ends
  · exact later.settings

theorem Reads.of_ends {tail : List Bytes} (ends : Ends posixlyCorrect tail) :
    Reads posixlyCorrect tail options options [] tail :=
  ⟨rfl, fun _item member => absurd member List.not_mem_nil, ends, rfl⟩

theorem items_of_options {args : List Bytes} {final : Options}
    (reads : parseArgsLoop posixlyCorrect fuel { nextchar := [], rest := args } options =
      .options final) :
    ∃ items tail, Reads posixlyCorrect args options final items tail := by
  induction count : args.length using Nat.strong_induction_on generalizing args options fuel with
  | _ count ih =>
      cases fuel with
      | zero => cases reads
      | succ fuel =>
          have stops (ends : Ends posixlyCorrect args) :
              ∃ items tail, Reads posixlyCorrect args options final items tail := by
            rw [loop_stops (nextElement_ends ends)] at reads
            cases reads
            exact ⟨[], args, Reads.of_ends ends⟩
          cases args with
          | nil => exact stops trivial
          | cons arg later =>
              rw [List.length_cons] at count
              rcases element_cases arg with operand | rfl | ⟨char, chars, rfl, notDashes⟩
              · cases permutes : posixlyCorrect with
                | true =>
                    rw [← permutes]
                    exact stops (Or.inr ⟨permutes, operand⟩)
                | false =>
                    rw [loop_operand operand permutes] at reads
                    obtain ⟨items, tail, rest⟩ := ih later.length (by omega) reads rfl
                    rw [← permutes]
                    exact ⟨.operand arg :: items, tail, Reads.cons (.operand arg) ⟨permutes, operand⟩ rest⟩
              · exact stops (Or.inl rfl)
              · rw [loop_element notDashes] at reads
                obtain ⟨less, left, made, cluster, onward⟩ := cluster_of_options reads
                generalize shape : char :: chars = element at cluster
                cases cluster with
                | flags flags =>
                    obtain ⟨items, tail, rest⟩ := ih later.length (by omega) onward rfl
                    cases flags with
                    | zero => cases shape
                    | succ more =>
                        exact ⟨.flags more :: items, tail, Reads.cons (.flags more) trivial rest⟩
                | attached flags text some_text =>
                    obtain ⟨items, tail, rest⟩ := ih later.length (by omega) onward rfl
                    exact ⟨.attached flags text :: items, tail,
                      Reads.cons (.attached flags text) some_text rest⟩
                | separate flags text behind next =>
                    subst next
                    rw [List.length_cons] at count
                    obtain ⟨items, tail, rest⟩ := ih left.length (by omega) onward rfl
                    exact ⟨.separate flags text :: items, tail,
                      Reads.cons (.separate flags text) trivial rest⟩

end Items

/-- `parseArgs` returns exactly for the command lines that are made of items, up
to the end, to `--` or, with POSIXLY_CORRECT, to an operand; the options are
those of the items from the left to the right. For every other command line it
exits with the message about the option, never through `printUsage`. -/
theorem parseArgs_iff (posixlyCorrect : Bool) (args : List Bytes) :
    (∀ options, parseArgs posixlyCorrect args = .options options ↔
      ∃ items tail, Reads posixlyCorrect args Options.default options items tail) ∧
    ((∀ options items tail, ¬ Reads posixlyCorrect args Options.default options items tail) →
      ∃ optopt, parseArgs posixlyCorrect args = .unknown 63 optopt) := by
  have returns (options : Options) : parseArgs posixlyCorrect args = .options options ↔
      ∃ items tail, Reads posixlyCorrect args Options.default options items tail := by
    constructor
    · exact items_of_options
    · rintro ⟨items, tail, reads⟩
      obtain ⟨fuel, parsed⟩ := loop_items reads.valid reads.ends Options.default
      rw [← reads.shape, ← reads.settings] at parsed
      have finishes : parseArgsLoop posixlyCorrect fuel { nextchar := [], rest := args }
          Options.default ≠ .unfinished := by
        rw [parsed]
        exact fun impossible => Parsed.noConfusion impossible
      exact (parseArgs_eq finishes).trans parsed
  refine ⟨returns, ?_⟩
  intro unreadable
  have settled := parseArgs_settles posixlyCorrect args
  cases parsed : parseArgs posixlyCorrect args with
  | options options =>
      obtain ⟨items, tail, reads⟩ := (returns options).mp parsed
      exact absurd reads (unreadable options items tail)
  | unknown opt optopt =>
      rw [parsed] at settled
      refine ⟨optopt, ?_⟩
      rw [show opt = 63 from settled]
  | usage =>
      rw [parsed] at settled
      exact absurd settled id
  | unfinished => exact absurd parsed settled.finishes

end Aesd.Server
