import Mathlib.Data.Nat.Digits.Defs
import Uplink.Proofs.Agent.Endpoints
import Uplink.Proofs.Text.Casing
/-!
What the variables of an environment ask for.  Three of them decide whether there is a configuration
at all, by the text they hold or the default in its place, and the first that is not in order is
reported.  Every number of the configuration is what its variable spells, and a variable that spells
none leaves the default.
-/
namespace Uplink

namespace Octets

/-- Octets spell a text exactly if they are its own. -/
theorem text?_eq_some_iff {o : Octets} {s : String} : text? o = some s ↔ o = ofText s := by
  refine ⟨fun h => ?_, fun h => h ▸ text?_ofText s⟩
  unfold text? String.fromUTF8? at h
  split at h
  next => cases h; rfl
  next => cases h

end Octets

namespace Environment

variable {env : Environment} {name : String} {cs digits : List Char} {n : Nat} {v : UInt64}

/-! ### Numbers -/

/-- The number of some decimal digits, the first of them weighing most. -/
def decimal (digits : List Char) : Nat :=
  Nat.ofDigits 10 (digits.reverse.map fun d => d.toNat - 48)

/-- One decimal digit or more, with or without a plus sign. -/
def Numeral (cs : List Char) (n : Nat) : Prop :=
  ∃ plus digits, cs = plus ++ digits ∧ (plus = [] ∨ plus = ['+']) ∧ digits ≠ []
    ∧ (∀ d ∈ digits, d.isDigit) ∧ decimal digits = n

/-- A variable asks for a number: it is set to a text that is a numeral of it, blanks around the
numeral aside, and the number is a word. -/
def Asks (env : Environment) (name : String) (n : Nat) : Prop :=
  ∃ s mid, env name = some (Octets.ofText s) ∧ Text.Trims s.toList mid ∧ Numeral mid n
    ∧ n < UInt64.size

theorem decimal_append_singleton (digits : List Char) (d : Char) :
    decimal (digits ++ [d]) = 10 * decimal digits + (d.toNat - 48) := by
  simp [decimal, Nat.ofDigits_cons, Nat.add_comm]

theorem foldl_eq_decimal (digits : List Char) :
    digits.foldl (fun n c => 10 * n + (c.toNat - 48)) 0 = decimal digits := by
  induction digits using List.reverseRecOn with
  | nil => rfl
  | append_singleton digits d ih =>
    rw [List.foldl_append, ih, decimal_append_singleton]
    rfl

/-- The digits of a numeral, if it is one. -/
def afterPlus : List Char → List Char
  | '+' :: rest => rest
  | cs => cs

theorem afterPlus_of_isDigit (hne : digits ≠ []) (hdigits : ∀ d ∈ digits, d.isDigit) :
    afterPlus digits = digits := by
  unfold afterPlus
  split
  next rest => exact absurd (hdigits '+' List.mem_cons_self) (by decide)
  next => rfl

theorem exists_afterPlus (cs : List Char) :
    ∃ plus, cs = plus ++ afterPlus cs ∧ (plus = [] ∨ plus = ['+']) := by
  unfold afterPlus
  split
  next rest => exact ⟨['+'], rfl, .inr rfl⟩
  next => exact ⟨[], rfl, .inl rfl⟩

theorem word?_eq (cs : List Char) :
    word? cs = if (afterPlus cs).isEmpty || !(afterPlus cs).all Char.isDigit then none
      else if decimal (afterPlus cs) < UInt64.size then some (.ofNat (decimal (afterPlus cs)))
      else none := by
  rw [← foldl_eq_decimal]
  rfl

theorem spelt_iff {digits : List Char} :
    ¬(digits.isEmpty || !digits.all Char.isDigit) = true
      ↔ digits ≠ [] ∧ ∀ d ∈ digits, d.isDigit = true := by
  rw [Bool.not_eq_true, Bool.or_eq_false_iff, List.isEmpty_eq_false_iff, Bool.not_eq_false',
    List.all_eq_true]

/-- A word is read from its numerals and from nothing else. -/
theorem word?_eq_some_iff : word? cs = some v ↔ Numeral cs v.toNat := by
  rw [word?_eq]
  constructor
  · intro h
    split at h
    · cases h
    next hdigits =>
      split at h
      next hlt =>
        cases h
        obtain ⟨hne, hall⟩ := spelt_iff.mp hdigits
        obtain ⟨plus, hcs, hplus⟩ := exists_afterPlus cs
        exact ⟨plus, _, hcs, hplus, hne, hall, (UInt64.toNat_ofNat_of_lt' hlt).symm⟩
      next => cases h
  · rintro ⟨plus, digits, rfl, hplus, hne, hall, hn⟩
    have hafter : afterPlus (plus ++ digits) = digits := by
      rcases hplus with rfl | rfl
      · exact afterPlus_of_isDigit hne hall
      · rfl
    have hlt : decimal digits < UInt64.size := hn ▸ v.toNat_lt
    rw [hafter, if_neg (spelt_iff.mpr ⟨hne, hall⟩), if_pos hlt, hn, UInt64.ofNat_toNat]

theorem text?_eq_some_iff {s : String} :
    env.text? name = some s ↔ env name = some (Octets.ofText s) := by
  rw [text?, Option.bind_eq_some_iff]
  simp [Octets.text?_eq_some_iff]

def textOr (env : Environment) (name default : String) : String := (env.text? name).getD default

def word (env : Environment) (name : String) : Option UInt64 :=
  (env.text? name).bind fun s => word? (Text.trimChars s.toList)

theorem wordOr_eq (env : Environment) (name : String) (default : UInt64) :
    env.wordOr name default = (env.word name).getD default := rfl

theorem word_eq_some_iff : env.word name = some v ↔ env.Asks name v.toNat := by
  rw [word, Option.bind_eq_some_iff]
  constructor
  · rintro ⟨s, hs, hword⟩
    exact ⟨s, _, text?_eq_some_iff.mp hs, Text.trims_trimChars _, word?_eq_some_iff.mp hword,
      v.toNat_lt⟩
  · rintro ⟨s, mid, hs, htrims, hnumeral, -⟩
    exact ⟨s, text?_eq_some_iff.mpr hs, htrims.trimChars_eq ▸ word?_eq_some_iff.mpr hnumeral⟩

/-- A variable gives the number it asks for, and the default if it asks for none. -/
theorem wordOr_by_asks (env : Environment) (name : String) (default : UInt64) :
    (∀ n, env.Asks name n → (env.wordOr name default).toNat = n)
      ∧ ((∀ n, ¬env.Asks name n) → env.wordOr name default = default) := by
  rw [wordOr_eq]
  refine ⟨fun n hn => ?_, fun hnone => ?_⟩
  · have hlt : n < UInt64.size := by
      obtain ⟨_, _, _, _, _, hlt⟩ := hn
      exact hlt
    have hto : (UInt64.ofNat n).toNat = n := UInt64.toNat_ofNat_of_lt' hlt
    have hword : env.word name = some (.ofNat n) := word_eq_some_iff.mpr (hto.symm ▸ hn)
    rw [hword, Option.getD_some, hto]
  · cases hword : env.word name with
    | none => rfl
    | some v => exact absurd (word_eq_some_iff.mp hword) (hnone _)

end Environment

namespace AgentConfig

/-! ### The conditions -/

def IsHttp (url : String) : Prop := ∃ scheme ∈ schemes, scheme.toList <+: Text.trimChars url.toList

def IsNamed (neUid : String) : Prop := Text.trimChars neUid.toList ≠ []

/-- A level by its name, up to the case of ASCII letters. -/
def IsLevel (level : String) : Prop :=
  ∃ name ∈ logLevels, level.toList.map Char.toLower = name.toList

/-- What is reported of a base URL without a scheme. -/
def urlComplaint (url : String) : String :=
  if Text.trimChars url.toList = [] then "NE_OMC_URL cannot be empty"
  else "NE_OMC_URL must be an http(s) URL, got '" ++ Text.trim url ++ "'"

def levelComplaint (level : String) : String :=
  "Invalid log level '" ++ level ++ "'. Must be one of: " ++ "trace, debug, info, warn, error"

variable {c : AgentConfig}

theorem validate_of_not_isHttp (h : ¬IsHttp c.omcUrl) :
    c.validate = .error (.invalidConfig (urlComplaint c.omcUrl)) := by
  unfold validate urlComplaint
  dsimp only
  by_cases hempty : Text.trimChars c.omcUrl.toList = []
  · rw [if_pos (List.isEmpty_iff.mpr hempty), if_pos hempty]
  · rw [if_neg (mt List.isEmpty_iff.mp hempty), if_neg hempty, if_pos ((lacksScheme_iff _).mpr h)]
    rfl

theorem IsHttp.trimChars_ne_nil {url : String} (h : IsHttp url) :
    Text.trimChars url.toList ≠ [] := by
  obtain ⟨scheme, hscheme, hp⟩ := h
  obtain ⟨name, hname⟩ := toList_scheme hscheme
  intro hnil
  rw [hnil, hname, List.prefix_nil] at hp
  simp at hp

/-- A base URL in order leaves the two other conditions. -/
theorem validate_of_isHttp (h : IsHttp c.omcUrl) :
    c.validate = if (Text.trimChars c.neUid.toList).isEmpty then
        .error (.invalidConfig "NE_UID cannot be empty")
      else if !logLevels.contains c.logLevel then
        .error (.invalidConfig (levelComplaint c.logLevel))
      else .ok () := by
  have hnames : ", ".intercalate logLevels = "trace, debug, info, warn, error" := by
    simp [logLevels]
  unfold validate
  dsimp only
  rw [if_neg (mt List.isEmpty_iff.mp h.trimChars_ne_nil),
    if_neg fun hlacks => (lacksScheme_iff _).mp hlacks h, hnames]
  rfl

theorem validate_of_not_isNamed (h : IsHttp c.omcUrl) (hblank : ¬IsNamed c.neUid) :
    c.validate = .error (.invalidConfig "NE_UID cannot be empty") := by
  rw [validate_of_isHttp h, if_pos (List.isEmpty_iff.mpr (not_not.mp hblank))]

theorem validate_of_not_mem (h : IsHttp c.omcUrl) (hnamed : IsNamed c.neUid)
    (hlevel : c.logLevel ∉ logLevels) :
    c.validate = .error (.invalidConfig (levelComplaint c.logLevel)) := by
  rw [validate_of_isHttp h, if_neg (mt List.isEmpty_iff.mp hnamed), if_pos (by simpa using hlevel)]

theorem validate_of_mem (h : IsHttp c.omcUrl) (hnamed : IsNamed c.neUid)
    (hlevel : c.logLevel ∈ logLevels) : c.validate = .ok () := by
  rw [validate_of_isHttp h, if_neg (mt List.isEmpty_iff.mp hnamed), if_neg (by simpa using hlevel)]

/-! ### The configuration an environment asks for -/

/-- The variables that hold numbers, with their fields and their defaults. -/
def numbers : List (String × (AgentConfig → UInt64) × UInt64) :=
  [("NE_DISPATCH_WORKERS", dispatchWorkers, 2),
    ("NE_DISPATCH_QUEUE_CAPACITY", dispatchQueueCapacity, 500),
    ("NE_HISTORY_CAPACITY", historyCapacity, 4096),
    ("NE_KPI_GRANULARITY_SECS", kpiGranularitySecs, 60),
    ("NE_PUSH_TIMEOUT_SECS", pushTimeoutSecs, 60), ("NE_DEMO_INTERVAL_SECS", demoIntervalSecs, 0)]

theorem number_ofEnvironment (env : Environment) :
    ∀ entry ∈ numbers, entry.2.1 (ofEnvironment env) = env.wordOr entry.1 entry.2.2 := by
  simp [numbers, ofEnvironment]

structure Reflects (c : AgentConfig) (env : Environment) : Prop where
  omcUrl : c.omcUrl = env.textOr "NE_OMC_URL" "http://127.0.0.1:33030"
  orgUid : c.orgUid = env.textOr "NE_ORG_UID" "4400HX1"
  neUid : c.neUid = env.textOr "NE_UID" "4400HX1NE001"
  logLevel : c.logLevel.toList = (env.textOr "NE_LOG_LEVEL" "info").toList.map Char.toLower
  proxy : ∀ proxy, env.text? "NE_PROXY_HTTPS" = some proxy → c.httpsProxy = some proxy
  otherProxy : env.text? "NE_PROXY_HTTPS" = none → c.httpsProxy = env.text? "HTTPS_PROXY"
  number : ∀ entry ∈ numbers, (∀ n, env.Asks entry.1 n → (entry.2.1 c).toNat = n)
    ∧ ((∀ n, ¬env.Asks entry.1 n) → entry.2.1 c = entry.2.2)

theorem plain_logLevels : ∀ name ∈ logLevels, ∀ x ∈ name.toList, Text.Plain x := by
  have hall : logLevels.all fun name => name.toList.all fun x => decide (Text.Plain x) := by
    decide +kernel
  simpa only [List.all_eq_true, decide_eq_true_eq] using hall

/-- A level is known once it is in lower case exactly if it is one up to the case of ASCII
letters. -/
theorem lower_mem_logLevels_iff (level : String) :
    Text.lower level ∈ logLevels ↔ IsLevel level := by
  refine ⟨fun h => ⟨_, h, (Text.lower_eq_iff (plain_logLevels _ h) level).mp rfl⟩, ?_⟩
  rintro ⟨name, hname, hlevel⟩
  rw [(Text.lower_eq_iff (plain_logLevels _ hname) level).mpr hlevel]
  exact hname

theorem logLevel_ofEnvironment (env : Environment) :
    (ofEnvironment env).logLevel = Text.lower (env.textOr "NE_LOG_LEVEL" "info") := by
  have hdefault : Text.lower "info" = "info" := by decide +kernel
  show ((env.text? "NE_LOG_LEVEL").map Text.lower).getD "info" = _
  cases h : env.text? "NE_LOG_LEVEL" with
  | none => simp [Environment.textOr, h, hdefault]
  | some level => simp [Environment.textOr, h]

theorem load_eq (env : Environment) :
    load env = (ofEnvironment env).validate.map fun _ => ofEnvironment env := by
  unfold load
  dsimp only
  cases (ofEnvironment env).validate <;> rfl

/-- What is loaded reflects the environment. -/
theorem reflects_ofEnvironment {env : Environment}
    (hlevel : IsLevel (env.textOr "NE_LOG_LEVEL" "info")) : (ofEnvironment env).Reflects env where
  omcUrl := rfl
  orgUid := rfl
  neUid := rfl
  logLevel := by
    obtain ⟨name, hname, hlower⟩ := hlevel
    rw [logLevel_ofEnvironment, hlower,
      (Text.lower_eq_iff (plain_logLevels _ hname) _).mpr hlower]
  proxy proxy h := by
    show (env.text? "NE_PROXY_HTTPS").or (env.text? "HTTPS_PROXY") = _
    rw [h, Option.some_or]
  otherProxy h := by
    show (env.text? "NE_PROXY_HTTPS").or (env.text? "HTTPS_PROXY") = _
    rw [h, Option.none_or]
  number entry hentry := by
    rw [number_ofEnvironment env entry hentry]
    exact env.wordOr_by_asks entry.1 entry.2.2

/-- An environment gives a configuration exactly if the base URL has a scheme, the network element a
name and the level is known, each by its variable or its default; the first of these that fails is
reported.  The configuration holds what the variables ask for. -/
theorem load_by_variables (env : Environment) :
    let url := env.textOr "NE_OMC_URL" "http://127.0.0.1:33030"
    let neUid := env.textOr "NE_UID" "4400HX1NE001"
    let level := env.textOr "NE_LOG_LEVEL" "info"
    ((∃ c, load env = .ok c) ↔ IsHttp url ∧ IsNamed neUid ∧ IsLevel level)
      ∧ (¬IsHttp url → load env = .error (.invalidConfig (urlComplaint url)))
      ∧ (IsHttp url → ¬IsNamed neUid →
        load env = .error (.invalidConfig "NE_UID cannot be empty"))
      ∧ (IsHttp url → IsNamed neUid → ¬IsLevel level →
        load env = .error (.invalidConfig (levelComplaint (Text.lower level))))
      ∧ ∀ c, load env = .ok c → c.Reflects env := by
  intro url neUid level
  have hmem : (ofEnvironment env).logLevel ∈ logLevels ↔ IsLevel level := by
    rw [logLevel_ofEnvironment, lower_mem_logLevels_iff]
  have hload := load_eq env
  by_cases h : IsHttp url
  · by_cases hnamed : IsNamed neUid
    · by_cases hlevel : IsLevel level
      · rw [validate_of_mem (c := ofEnvironment env) h hnamed (hmem.mpr hlevel)] at hload
        refine ⟨iff_of_true ⟨_, hload⟩ ⟨h, hnamed, hlevel⟩, absurd h, fun _ => absurd hnamed,
          fun _ _ => absurd hlevel, fun c hc => ?_⟩
        exact Except.ok.inj (hload.symm.trans hc) ▸ reflects_ofEnvironment hlevel
      · rw [validate_of_not_mem (c := ofEnvironment env) h hnamed (mt hmem.mp hlevel),
          logLevel_ofEnvironment] at hload
        refine ⟨iff_of_false ?_ (fun hall => hlevel hall.2.2), absurd h, fun _ => absurd hnamed,
          fun _ _ _ => hload, ?_⟩ <;> simp [hload, Except.map]
    · rw [validate_of_not_isNamed (c := ofEnvironment env) h hnamed] at hload
      refine ⟨iff_of_false ?_ (fun hall => hnamed hall.2.1), absurd h, fun _ _ => hload,
        fun _ hall => absurd hall hnamed, ?_⟩ <;> simp [hload, Except.map]
  · rw [validate_of_not_isHttp (c := ofEnvironment env) h] at hload
    refine ⟨iff_of_false ?_ (fun hall => h hall.1), fun _ => hload, fun hall => absurd hall h,
      fun hall => absurd hall h, ?_⟩ <;> simp [hload, Except.map]

/-- An environment with blanks, capitals, octets that are no text, and numbers of several forms. -/
def unruly : Environment
  | "NE_OMC_URL" => some (.ofText "\t https://omc/ ")
  | "NE_UID" => some [0xFF]
  | "NE_LOG_LEVEL" => some (.ofText "wArN")
  | "NE_DISPATCH_WORKERS" => some (.ofText " +007\n")
  | "NE_HISTORY_CAPACITY" => some (.ofText "18446744073709551616")
  | "HTTPS_PROXY" => some (.ofText "")
  | _ => none

/-- What the unruly environment asks for. -/
def tamed : AgentConfig :=
  { omcUrl := "\t https://omc/ ", dispatchWorkers := 7, httpsProxy := some "", logLevel := "warn" }

theorem load_by_variables_unruly :
    load unruly = .ok tamed
      ∧ (IsHttp (unruly.textOr "NE_OMC_URL" "http://127.0.0.1:33030")
        ∧ IsNamed (unruly.textOr "NE_UID" "4400HX1NE001")
        ∧ IsLevel (unruly.textOr "NE_LOG_LEVEL" "info"))
      ∧ tamed.Reflects unruly := by
  obtain ⟨haccepted, -, -, -, hreflects⟩ := load_by_variables unruly
  have hload : load unruly = .ok tamed := by decide +kernel
  exact ⟨hload, haccepted.mp ⟨_, hload⟩, hreflects _ hload⟩

end AgentConfig

end Uplink
