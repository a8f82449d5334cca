import TunnelBoard.Config.Override
/-
  What the variables of the environment do to a configuration.

  Each variable is read into a value for one part of the configuration, or it cannot be read at all.
  A configuration overridden by all variables is then one record (`Config.overridden`), in which
  nothing is said of an order, and applying the overrides one after another comes to that record, cut
  off before the first variable that cannot be read.

  The readers are specified without their loops.  A number is digits, perhaps with a plus sign, and
  less than 2^64 as a whole (`signedWord?`), where the reader watches the bound at each digit; a mode
  is a word in a table (`Mode.words`); modes are what stands between the commas, blanks apart.  On
  that rest the two facts about one override: what it does to a value that can be read, and that it
  refuses every other (`Override.IsDescribed`).  They are proved for the three kinds of override
  (`Puts`), and the seven variables are instances.

  The crux of the rest is `overridden_only_only`: a configuration that is overridden by some variables
  and then by others is one that is overridden by all of them, because no two variables are about the
  same part.  By induction, overrides that are all in order can be passed over (`applyAll_append`),
  and the next one finds what the record says.  At the end of the list stands `override_of_readable`,
  at the first stumbling block `override_of_not_readable`.
-/

namespace TunnelBoard

/-! ## Numbers -/

/-- The number that digits stand for, if there are any and 64 bits can hold it. -/
def word? (digits : Text) : Option Nat :=
  let n := Nat.ofDigitChars 10 digits 0
  if digits ≠ [] ∧ digits.all Char.isDigit ∧ n < Nat.pow 2 64 then some n else none

/-- The number that a text stands for: digits with or without one plus sign in front. -/
def signedWord? : Text → Option Nat
  | '+' :: digits => word? digits
  | digits => word? digits

section

variable {n m : Nat} {s : Text}

/-- A number does not get smaller when digits are put behind it. -/
theorem le_ofDigitChars (n : Nat) (s : Text) : n ≤ Nat.ofDigitChars 10 s n := by
  induction s generalizing n with
  | nil => exact Nat.le_refl n
  | cons c s ih =>
    rw [Nat.ofDigitChars_cons]
    exact Nat.le_trans (by omega) (ih _)

/-- Digits that go over the bound at some place go over it in the end, so watching each place tells what
    the whole number tells. -/
theorem readDigits_eq_ok_iff (hn : n < Nat.pow 2 64) :
    readDigits n s = .ok m ↔
      (∀ c ∈ s, c.isDigit) ∧ Nat.ofDigitChars 10 s n < Nat.pow 2 64 ∧ Nat.ofDigitChars 10 s n = m := by
  induction s generalizing n with
  | nil => simpa [readDigits] using fun _ => hn
  | cons c s ih =>
    rw [readDigits, Nat.ofDigitChars_cons, List.forall_mem_cons, Nat.mul_comm 10 n]
    have hle := le_ofDigitChars (n * 10 + (c.toNat - '0'.toNat)) s
    by_cases hc : c.isDigit = true
    · rw [if_neg (by simp [hc])]
      by_cases hlt : n * 10 + (c.toNat - '0'.toNat) < Nat.pow 2 64
      · simp only [if_pos hlt, ih hlt, hc, true_and]
      · -- too large at this place is too large in the end
        have hover : ¬ Nat.ofDigitChars 10 s (n * 10 + (c.toNat - '0'.toNat)) < Nat.pow 2 64 := by omega
        simp only [if_neg hlt, hover, reduceCtorEq, false_and, and_false]
    · simp only [hc, Bool.not_false, if_true, reduceCtorEq, false_and]

/-- To read digits one by one is to read them as a whole. -/
theorem readDigits_zero_eq_ok_iff (hs : s ≠ []) : readDigits 0 s = .ok n ↔ word? s = some n := by
  simp only [readDigits_eq_ok_iff (by decide : 0 < Nat.pow 2 64), word?, Option.ite_none_right_eq_some,
    Option.some.injEq, ne_eq, hs, not_false_eq_true, true_and, and_assoc, List.all_eq_true]

/-- There is no number without a digit. -/
theorem word?_nil : word? [] = none := rfl

/-- The reader of numbers takes what has the form of one, and finds the number that it stands for.  A
    sign alone is refused, like an empty text. -/
theorem parseNumber_eq_ok_iff : parseNumber s = .ok n ↔ signedWord? s = some n := by
  unfold parseNumber signedWord?
  split
  · simp [word?_nil]
  · simp [word?_nil]
  · -- a plus sign: what follows it is not empty, for that was a case of its own
    next digits hne => exact readDigits_zero_eq_ok_iff fun h => hne (h ▸ rfl)
  · next hnil _ hplus =>
    split
    · next digits _ => exact absurd rfl (hplus digits)
    · exact readDigits_zero_eq_ok_iff hnil

end

/-! ## Modes -/

namespace Mode

/-- The words for a mode. -/
def words : List (Text × Mode) :=
  [("tun".toList, tun), ("proxy".toList, proxy), ("socks".toList, proxy)]

/-- The mode that a word stands for, whatever its case and the blanks around it. -/
def named? (s : Text) : Option Mode := words.lookup (lowerAscii (trim s))

/-- The reader of modes looks its word up.  It goes by the names of the modes after it has asked for
    the one word that is not a name; the table has all three. -/
theorem parse_eq (s : Text) :
    parse s =
      match named? s with
      | some m => .ok m
      | none => .error (lowerAscii (trim s)) := by
  unfold parse named? ofName?
  generalize lowerAscii (trim s) = key
  by_cases hsocks : key = "socks".toList
  · subst hsocks
    rfl
  by_cases htun : key = "tun".toList
  · subst htun
    rfl
  by_cases hproxy : key = "proxy".toList
  · subst hproxy
    rfl
  -- no mode has this name, and no word of the table is it
  have hfind : (all.find? fun m => m.name = key) = none := by
    simp only [all, name, List.find?, Ne.symm htun, Ne.symm hproxy, decide_false]
  have hlookup : words.lookup key = none := by
    simp only [words, List.lookup_cons, List.lookup_nil, beq_eq_false_iff_ne.2 hsocks,
      beq_eq_false_iff_ne.2 htun, beq_eq_false_iff_ne.2 hproxy]
  simp only [hsocks, if_false, hfind, hlookup]

/-- A mode is read from the words that stand for it. -/
theorem parse_eq_ok_iff {s : Text} {m : Mode} : parse s = .ok m ↔ named? s = some m := by
  rw [parse_eq]
  cases named? s with
  | none => simp
  | some m' => simp

end Mode

/-! ## Values -/

namespace Override

/-- The variables, in the order they count. -/
def names : List String := all.map (·.name)

/-- The number in the value of a variable. -/
def number? (raw : Text) : Option Nat := signedWord? (trim raw)

/-- The modes in the value of a variable, between the commas. -/
def modes? (raw : Text) : Option (List Mode) :=
  ((cutAt ',' raw).filter (!allBlank ·)).mapM Mode.named?

/-- Whether a variable can have this value: some take only numbers, one takes only the names of modes between
    commas. -/
def Readable (name : String) (raw : Text) : Prop :=
  (name ∈ ["TUNDASH_TICK_INTERVAL_MS", "TUNDASH_LOG_POLL_INTERVAL_MS", "TUNDASH_LOG_TAIL_LINES",
      "TUNDASH_LOG_CAPACITY"] → (number? raw).isSome) ∧
    (name = "TUNDASH_MODES" →
      ∀ part ∈ cutAt ',' raw, allBlank part = false → (Mode.named? part).isSome)

instance (name : String) (raw : Text) : Decidable (Readable name raw) :=
  inferInstanceAs (Decidable ((_ → _) ∧ (_ → _)))

/-- The lookup of some variables, as if the others were not set. -/
def only (names : List String) (lookup : String → Option Text) (name : String) : Option Text :=
  if name ∈ names then lookup name else none

end Override

open Override

/-- A configuration with the values that variables have, and its own where they have none. -/
def Config.overridden (lookup : String → Option Text) (c : Config) : Config where
  dashboard :=
    { tickInterval :=
        ((lookup "TUNDASH_TICK_INTERVAL_MS").bind number?).getD c.dashboard.tickInterval
      logPollInterval :=
        ((lookup "TUNDASH_LOG_POLL_INTERVAL_MS").bind number?).getD c.dashboard.logPollInterval
      logTailLines :=
        ((lookup "TUNDASH_LOG_TAIL_LINES").bind number?).getD c.dashboard.logTailLines
      maxCardWidth := c.dashboard.maxCardWidth }
  logging :=
    { capacity := ((lookup "TUNDASH_LOG_CAPACITY").bind number?).getD c.logging.capacity
      level := (lookup "TUNDASH_LOG_LEVEL").getD c.logging.level }
  modes := ((lookup "TUNDASH_MODES").bind modes?).getD c.modes
  paths :=
    { configFile := c.paths.configFile
      preferencesFile := (lookup "TUNDASH_PREFERENCES_FILE").getD c.paths.preferencesFile }

namespace Override

variable {lookup : String → Option Text} {name : String} {raw : Text}

/-! ## One variable

An override takes a value out of a text and puts it into one part.  There are three kinds of values,
for numbers, texts and lists of modes. -/

/-- Taking every item out succeeds in one way if it does in the other. -/
theorem mapM_eq_ok_iff {α β ε : Type} {f : α → Except ε β} {g : α → Option β}
    (h : ∀ a b, f a = .ok b ↔ g a = some b) (as : List α) (bs : List β) :
    as.mapM f = .ok bs ↔ as.mapM g = some bs := by
  induction as generalizing bs with
  | nil => simp [pure, Except.pure]
  | cons a as ih =>
    rw [List.mapM_cons, List.mapM_cons]
    calc
      _ ↔ ∃ b cs, f a = .ok b ∧ as.mapM f = .ok cs ∧ b :: cs = bs := by
        cases f a <;> cases as.mapM f <;> simp [bind, pure, Except.bind, Except.pure]
      _ ↔ ∃ b cs, g a = some b ∧ as.mapM g = some cs ∧ b :: cs = bs := by simp only [h, ih]
      _ ↔ _ := by simp [Option.bind_eq_some_iff]

/-- Taking every item out succeeds if each of them can be taken. -/
theorem isSome_mapM {α β : Type} (g : α → Option β) (as : List α) :
    (as.mapM g).isSome ↔ ∀ a ∈ as, (g a).isSome := by
  induction as with
  | nil => simp
  | cons a as ih =>
    rw [List.mapM_cons, List.forall_mem_cons, ← ih]
    cases g a <;> cases as.mapM g <;> simp

/-- The reader of lists of modes takes them one by one. -/
theorem modesIn_eq_ok_iff {modes : List Mode} : modesIn raw = .ok modes ↔ modes? raw = some modes :=
  mapM_eq_ok_iff (fun _ _ => Mode.parse_eq_ok_iff) _ _

/-- A list of modes can be read if every word in it stands for one; what is blank between two commas
    does not count. -/
theorem isSome_modes? :
    (modes? raw).isSome ↔ ∀ part ∈ cutAt ',' raw, allBlank part = false → (Mode.named? part).isSome := by
  simp only [modes?, isSome_mapM, List.mem_filter, Bool.not_eq_true', and_imp]

/-- Whether an override puts the value that `read` finds into its part of a configuration, and refuses texts
    without one, whatever the configuration is. -/
structure Puts {α : Type} (o : Override) (read : Text → Option α) (set : Config → α → Config) : Prop where
  apply_of_some : ∀ raw a, read raw = some a → ∀ c, o.apply c raw = .ok (set c a)
  apply_of_none : ∀ raw, read raw = none → ∃ details, ∀ c, o.apply c raw = .error details

@[simp]
theorem name_number (name : String) (set : Config → Nat → Config) : (number name set).name = name := rfl

@[simp]
theorem name_text (name : String) (set : Config → Text → Config) : (text name set).name = name := rfl

@[simp]
theorem name_modes (name : String) : (modes name).name = name := rfl

/-- An override takes a value out of a text, or else refuses the text with a message. -/
theorem puts_of_read {α ε : Type} {o : Override} {read : Text → Option α} {set : Config → α → Config}
    {take : Text → Except ε α} (message : ε → Text) (htake : ∀ raw a, take raw = .ok a ↔ read raw = some a)
    (hok : ∀ raw a, take raw = .ok a → ∀ c, o.apply c raw = .ok (set c a))
    (herror : ∀ raw e, take raw = .error e → ∀ c, o.apply c raw = .error (message e)) : o.Puts read set where
  apply_of_some raw a h := hok raw a ((htake raw a).2 h)
  apply_of_none raw h := by
    cases hresult : take raw with
    | ok a => exact absurd ((htake raw a).1 hresult) (by simp [h])
    | error e => exact ⟨message e, herror raw e hresult⟩

/-- An override with a number puts it into its part and refuses what is no number. -/
theorem number_puts (name : String) (set : Config → Nat → Config) : (number name set).Puts number? set :=
  puts_of_read NumberError.message (fun raw _ => parseNumber_eq_ok_iff (s := trim raw))
    (fun _ _ h c => by simp only [number, h]) (fun _ _ h c => by simp only [number, h])

/-- An override with a text takes every text. -/
theorem text_puts (name : String) (set : Config → Text → Config) : (text name set).Puts some set where
  apply_of_some _ _ h _ := by
    cases h
    rfl
  apply_of_none _ h := nomatch h

/-- The override with modes puts them in the place of those that were offered. -/
theorem modes_puts (name : String) : (modes name).Puts modes? fun c modes => { c with modes } :=
  puts_of_read Mode.unknownMessage (fun _ _ => modesIn_eq_ok_iff)
    (fun _ _ h c => by simp only [Override.modes, h]) (fun _ _ h c => by simp only [Override.modes, h])

/-- Whether an override does what the description of its variable says. -/
structure IsDescribed (o : Override) : Prop where
  apply_of_readable : ∀ lookup raw, lookup o.name = some raw → Readable o.name raw →
    ∀ c, o.apply c raw = .ok (c.overridden (only [o.name] lookup))
  apply_of_not_readable : ∀ raw, ¬ Readable o.name raw → ∃ details, ∀ c, o.apply c raw = .error details

/-- What is left to be shown of an override whose reader is known: that the variable is described by
    this reader, and the part it sets is the one that is overridden. -/
theorem Puts.isDescribed {α : Type} {o : Override} {read : Text → Option α} {set : Config → α → Config}
    (h : o.Puts read set) (hread : ∀ raw, Readable o.name raw ↔ (read raw).isSome)
    (hset : ∀ lookup raw a, lookup o.name = some raw → read raw = some a →
      ∀ c, c.overridden (only [o.name] lookup) = set c a) : o.IsDescribed where
  apply_of_readable lookup raw hraw hreadable c := by
    obtain ⟨a, ha⟩ := Option.isSome_iff_exists.1 ((hread raw).1 hreadable)
    rw [h.apply_of_some raw a ha, hset lookup raw a hraw ha]
  apply_of_not_readable raw hreadable :=
    h.apply_of_none raw (Option.not_isSome_iff_eq_none.1 (mt (hread raw).2 hreadable))

/-- Every override does what is said of its variable.  There are three kinds of them, and one argument
    for each. -/
theorem isDescribed_of_mem : ∀ o ∈ all, o.IsDescribed := by
  simp only [all, List.forall_mem_cons, List.not_mem_nil, false_implies, implies_true, and_true]
  -- one goal for each variable, in the order of the list
  refine ⟨?tick, ?poll, ?tail, ?capacity, ?level, ?file, ?modes⟩
  case modes =>
    refine (modes_puts _).isDescribed ?_ ?_
    · intro raw
      simp [Readable, isSome_modes?]
    · intro lookup raw modes hraw hmodes c
      simp only [name_modes] at hraw
      simp [Config.overridden, only, hraw, hmodes]
  case level | file =>
    refine (text_puts _ _).isDescribed ?_ ?_
    · intro raw
      simp [Readable]
    · intro lookup raw t hraw ht c
      cases ht
      simp only [name_text] at hraw
      simp [Config.overridden, only, hraw]
  case tick | poll | tail | capacity =>
    refine (number_puts _ _).isDescribed ?_ ?_
    · intro raw
      simp [Readable]
    · intro lookup raw n hraw hn c
      simp only [name_number] at hraw
      simp [Config.overridden, only, hraw, hn]

/-! ## All variables

Overrides are applied in the order of their list, up to the first whose variable cannot be read.
Those before it come to the same as all of them at once, since each part has a variable of its own. -/

/-- Later values of a part win over earlier ones. -/
theorem getD_only_only {α : Type} (read : Text → Option α) (before after : List String) (a : α) :
    ((only after lookup name).bind read).getD (((only before lookup name).bind read).getD a)
      = ((only (before ++ after) lookup name).bind read).getD a := by
  unfold only
  by_cases hafter : name ∈ after
  · by_cases hbefore : name ∈ before
    · cases h : (lookup name).bind read <;> simp [hafter, hbefore, h]
    · simp [hafter, hbefore]
  · simp [hafter]

/-- Some variables and then others, or all of them at once: it comes to the same, since each part has
    one variable of its own. -/
theorem overridden_only_only (before after : List String) (c : Config) :
    (c.overridden (only before lookup)).overridden (only after lookup)
      = c.overridden (only (before ++ after) lookup) := by
  have htext (name : String) (t : Text) :
      (only after lookup name).getD ((only before lookup name).getD t)
        = (only (before ++ after) lookup name).getD t := by
    simpa only [Option.bind_fun_some] using getD_only_only some before after t
  simp only [Config.overridden, getD_only_only, htext]

/-- Without variables nothing is overridden. -/
theorem overridden_only_nil (c : Config) : c.overridden (only [] lookup) = c := rfl

/-- There are no variables besides those of the list. -/
theorem overridden_only_names (c : Config) : c.overridden (only names lookup) = c.overridden lookup := by
  simp [Config.overridden, only, names, all]

/-- A variable that is not set changes nothing. -/
theorem overridden_of_not_set (c : Config) (h : lookup name = none) :
    c.overridden (only [name] lookup) = c := by
  have hnone : only [name] lookup = only [] lookup := by
    funext other
    by_cases hother : other = name <;> simp [only, hother, h]
  rw [hnone, overridden_only_nil]

/-- Overrides whose variables can be read are all put in place, and the next ones go on from there. -/
theorem applyAll_append {front : List Override} (hall : ∀ o ∈ front, o ∈ all)
    (h : ∀ o ∈ front, ∀ raw ∈ lookup o.name, Readable o.name raw) (rest : List Override) (c : Config) :
    applyAll lookup (front ++ rest) c =
      applyAll lookup rest (c.overridden (only (front.map (·.name)) lookup)) := by
  induction front generalizing c with
  | nil => rfl
  | cons o front ih =>
    rw [List.forall_mem_cons] at hall h
    -- the rest goes on from a configuration that the first one has changed
    have hrest := ih hall.2 h.2 (c.overridden (only [o.name] lookup))
    rw [overridden_only_only] at hrest
    rw [List.cons_append, applyAll, List.map_cons, ← List.singleton_append, ← hrest]
    cases hraw : lookup o.name with
    | none => rw [overridden_of_not_set c hraw]
    | some raw => simp only [(isDescribed_of_mem o hall.1).apply_of_readable lookup raw hraw (h.1 raw hraw)]

/-- Overrides whose variables can be read are all put in place. -/
theorem applyAll_of_readable {os : List Override} (hall : ∀ o ∈ os, o ∈ all)
    (h : ∀ o ∈ os, ∀ raw ∈ lookup o.name, Readable o.name raw) (c : Config) :
    applyAll lookup os c = (c.overridden (only (os.map (·.name)) lookup), none) := by
  simpa only [List.append_nil, applyAll] using applyAll_append hall h [] c

/-- What is not true of all items fails at a first one. -/
theorem exists_first {α : Type} {p : α → Prop} {as : List α} (h : ¬ ∀ a ∈ as, p a) :
    ∃ front a rest, as = front ++ a :: rest ∧ (∀ b ∈ front, p b) ∧ ¬ p a := by
  induction as with
  | nil => exact absurd (fun _ => nofun) h
  | cons a as ih =>
    by_cases ha : p a
    · have hrest : ¬ ∀ b ∈ as, p b := fun hall => h (List.forall_mem_cons.2 ⟨ha, hall⟩)
      obtain ⟨front, b, rest, rfl, hfront, hb⟩ := ih hrest
      exact ⟨a :: front, b, rest, rfl, List.forall_mem_cons.2 ⟨ha, hfront⟩, hb⟩
    · exact ⟨[], a, as, rfl, fun _ => nofun, ha⟩

/-- The first variable that cannot be read stops the overrides. -/
theorem applyAll_cons_of_not_readable {o : Override} (ho : o ∈ all) (hraw : lookup o.name = some raw)
    (h : ¬ Readable o.name raw) (rest : List Override) :
    ∃ details, ∀ c, applyAll lookup (o :: rest) c = (c, some (failure o.name raw details)) := by
  obtain ⟨details, hdetails⟩ := (isDescribed_of_mem o ho).apply_of_not_readable raw h
  exact ⟨details, fun c => by simp only [applyAll, hraw, hdetails]⟩

end Override

namespace Config

variable {lookup : String → Option Text}

/-- If every variable that is set can be read, the configuration is overridden by all of them. -/
theorem override_of_readable (h : ∀ name ∈ names, ∀ raw ∈ lookup name, Readable name raw) (c : Config) :
    c.override lookup = (c.overridden lookup, none) := by
  have hall := applyAll_of_readable (fun _ ho => ho) (fun o ho => h o.name (List.mem_map_of_mem ho)) c
  rwa [← names, overridden_only_names] at hall

/-- What cannot be read stops the overrides: the variables before it count, those after it do not. -/
theorem override_of_not_readable (h : ¬ ∀ name ∈ names, ∀ raw ∈ lookup name, Readable name raw) (c : Config) :
    ∃ before name after raw details, names = before ++ name :: after ∧
      (∀ other ∈ before, ∀ raw ∈ lookup other, Readable other raw) ∧
      lookup name = some raw ∧ ¬ Readable name raw ∧
      c.override lookup = (c.overridden (only before lookup), some (failure name raw details)) := by
  have hall : ¬ ∀ o ∈ all, ∀ raw ∈ lookup o.name, Readable o.name raw := fun hall =>
    h (List.forall_mem_map.2 hall)
  obtain ⟨front, o, rest, hsplit, hfront, hstuck⟩ := exists_first hall
  obtain ⟨raw, hraw, hnot⟩ : ∃ raw, lookup o.name = some raw ∧ ¬ Readable o.name raw := by
    simpa using hstuck
  -- what stands before the first one that cannot be read, and that one itself, are overrides of the
  -- list
  have hmem : ∀ o' ∈ front ++ o :: rest, o' ∈ all := fun o' ho' => hsplit ▸ ho'
  have hmemFront : ∀ o' ∈ front, o' ∈ all := fun o' ho' => hmem o' (List.mem_append_left _ ho')
  obtain ⟨details, hdetails⟩ := applyAll_cons_of_not_readable (hmem o (by simp)) hraw hnot rest
  refine ⟨front.map (·.name), o.name, rest.map (·.name), raw, details, ?_, ?_, hraw, hnot, ?_⟩
  · rw [names, hsplit, List.map_append, List.map_cons]
  · exact List.forall_mem_map.2 hfront
  · rw [override, hsplit, applyAll_append hmemFront hfront, hdetails]

end Config
end TunnelBoard
