import Abacus.Settings
import Mathlib.Data.List.Basic
import Mathlib.Data.List.Induction

/-! Environment variables on top of settings.  Each setting has the value of the last variable that
gives it one; a variable whose text is no value gives none.  So the order of variables for different
settings makes no difference, nor do variables that give nothing. -/

namespace Abacus.Settings

/-! ### The settings one by one -/

inductive Field where
  | listing
  | color
  | log
  | historySize
deriving DecidableEq, Repr

namespace Field

def all : List Field := [listing, color, log, historySize]

theorem mem_all (field : Field) : field ∈ all := by
  cases field <;> decide

def key : Field → String
  | listing => "listing"
  | color => "color"
  | log => "log"
  | historySize => "history_size"

abbrev Value : Field → Type
  | listing | color => Bool
  | log => String
  | historySize => Nat

def get (settings : Settings) : (field : Field) → field.Value
  | listing => settings.listing
  | color => settings.color
  | log => settings.log
  | historySize => settings.historySize

/-- The value that a text stands for. -/
def read? (text : String) : (field : Field) → Option field.Value
  | listing | color => flag? text
  | log => some text
  | historySize => size? text

/-- Setting a key changes the one setting that has the key, and only if the text is a value. -/
theorem get_set (settings : Settings) (key text : String) (field : Field) :
    field.get (settings.set key text) =
      if key = field.key then (field.read? text).getD (field.get settings)
      else field.get settings := by
  unfold set
  split
  case h_5 listing color log historySize =>
    have other : key ≠ field.key := by
      cases field
      · exact listing
      · exact color
      · exact log
      · exact historySize
    rw [if_neg other]
  all_goals cases field <;> simp [get, read?, Field.key]

theorem ext_get {settings settings' : Settings}
    (h : ∀ field : Field, field.get settings' = field.get settings) : settings' = settings := by
  obtain ⟨listing, color, log, size⟩ := settings
  obtain rfl := h .listing
  obtain rfl := h .color
  obtain rfl := h .log
  obtain rfl := h .historySize
  rfl

end Field

/-! ### Variables -/

/-- The name is that of a variable for the setting: behind its prefix stands the key of the setting,
in letters of any case. -/
def Names (name : String) (field : Field) : Prop :=
  ∃ spelled, name = "TALLY_" ++ spelled ∧ String.ofList (Text.lower spelled.toList) = field.key

/-- The variable, a name with a text, gives the setting a value. -/
def Gives (entry : String × String) (field : Field) (value : field.Value) : Prop :=
  Names entry.1 field ∧ field.read? entry.2 = some value

def HasEffect (entry : String × String) : Prop :=
  ∃ (field : Field) (value : field.Value), Gives entry field value

/-- The new value of a setting is that of the last variable that gives it one, or else the old
one. -/
def LastGiven (environment : List (String × String)) (field : Field) (old new : field.Value) :
    Prop :=
  (∃ front entry back, environment = front ++ entry :: back ∧ Gives entry field new ∧
      ∀ later ∈ back, ∀ value, ¬ Gives later field value) ∨
    new = old ∧ ∀ entry ∈ environment, ∀ value, ¬ Gives entry field value

section Variables

variable {settings : Settings} {environment environment' : List (String × String)}
  {entry : String × String} {name : String} {field : Field}

theorem names_iff : Names name field ↔ variableKey? name = some field.key := by
  unfold Names variableKey?
  simp only [Option.map_eq_some_iff, List.isPrefixOf?_eq_some_iff_append_eq]
  constructor
  · rintro ⟨spelled, rfl, hKey⟩
    exact ⟨spelled.toList, String.toList_append.symm, hKey⟩
  · rintro ⟨spelled, hName, hKey⟩
    refine ⟨String.ofList spelled, ?_, by rw [String.toList_ofList, hKey]⟩
    rw [← String.toList_inj, ← hName, String.toList_append]
    exact congrArg _ String.toList_ofList.symm

instance : Decidable (Names name field) := decidable_of_iff _ names_iff.symm

theorem hasEffect_iff :
    (∃ field ∈ Field.all, Names entry.1 field ∧ (field.read? entry.2).isSome = true) ↔
      HasEffect entry := by
  simp only [Field.mem_all, true_and, Option.isSome_iff_exists, HasEffect, Gives, exists_and_left]

instance : Decidable (HasEffect entry) := decidable_of_iff _ hasEffect_iff

theorem get_withEnvironment_concat (settings : Settings) (environment : List (String × String))
    (entry : String × String) (field : Field) :
    field.get (settings.withEnvironment (environment ++ [entry])) =
      if Names entry.1 field then
        (field.read? entry.2).getD (field.get (settings.withEnvironment environment))
      else field.get (settings.withEnvironment environment) := by
  rw [withEnvironment, List.foldl_append, List.foldl_cons, List.foldl_nil, ← withEnvironment]
  simp only [names_iff]
  cases variableKey? entry.1 with
  | none => rfl
  | some key => simp only [Field.get_set, Option.some_inj]

theorem get_withEnvironment_of_gives {value : field.Value} (h : Gives entry field value) :
    field.get (settings.withEnvironment (environment ++ [entry])) = value := by
  rw [get_withEnvironment_concat, if_pos h.1, h.2, Option.getD_some]

theorem get_withEnvironment_of_idle (h : ∀ value, ¬ Gives entry field value) :
    field.get (settings.withEnvironment (environment ++ [entry])) =
      field.get (settings.withEnvironment environment) := by
  rw [get_withEnvironment_concat]
  split
  · next hNames =>
    have unread : field.read? entry.2 = none :=
      Option.eq_none_iff_forall_ne_some.mpr fun value hRead => h value ⟨hNames, hRead⟩
    rw [unread, Option.getD_none]
  · rfl

theorem LastGiven.concat {old new : field.Value} (h : LastGiven environment field old new)
    (idle : ∀ value, ¬ Gives entry field value) :
    LastGiven (environment ++ [entry]) field old new := by
  rcases h with ⟨front, given, back, rfl, hGives, later⟩ | ⟨rfl, none⟩
  · refine .inl ⟨front, given, back ++ [entry], by simp, hGives, ?_⟩
    exact List.forall_mem_append.mpr ⟨later, List.forall_mem_singleton.mpr idle⟩
  · exact .inr ⟨rfl, List.forall_mem_append.mpr ⟨none, List.forall_mem_singleton.mpr idle⟩⟩

theorem lastGiven_withEnvironment (settings : Settings) (environment : List (String × String))
    (field : Field) :
    LastGiven environment field (field.get settings)
      (field.get (settings.withEnvironment environment)) := by
  -- From the end, since the last variable decides if it gives a value.
  induction environment using List.reverseRecOn with
  | nil => exact .inr ⟨rfl, by simp⟩
  | append_singleton environment entry ih =>
    by_cases given : ∃ value, Gives entry field value
    · obtain ⟨value, hGives⟩ := given
      rw [get_withEnvironment_of_gives hGives]
      exact .inl ⟨environment, entry, [], rfl, hGives, by simp⟩
    · have idle := not_exists.mp given
      rw [get_withEnvironment_of_idle idle]
      exact ih.concat idle

/-! ### Environments alike -/

/-- Variables that give a setting nothing can be left out. -/
theorem get_withEnvironment_filter {keeps : String × String → Bool}
    (h : ∀ entry value, Gives entry field value → keeps entry = true) :
    field.get (settings.withEnvironment (environment.filter keeps)) =
      field.get (settings.withEnvironment environment) := by
  induction environment using List.reverseRecOn with
  | nil => rfl
  | append_singleton environment entry ih =>
    rw [List.filter_append]
    cases kept : keeps entry with
    | true =>
      rw [List.filter_cons_of_pos kept, List.filter_nil, get_withEnvironment_concat, ih,
        get_withEnvironment_concat]
    | false =>
      have idle (value : field.Value) : ¬ Gives entry field value := by
        intro hGives
        cases kept.symm.trans (h entry value hGives)
      rw [List.filter_cons_of_neg (Bool.not_eq_true _ ▸ kept), List.filter_nil, List.append_nil,
        ih, get_withEnvironment_of_idle idle]

theorem get_withEnvironment_congr {keeps : String × String → Bool}
    (h : ∀ entry value, Gives entry field value → keeps entry = true)
    (same : environment'.filter keeps = environment.filter keeps) :
    field.get (settings.withEnvironment environment') =
      field.get (settings.withEnvironment environment) := by
  rw [← get_withEnvironment_filter h, same, get_withEnvironment_filter h]

end Variables

/-- Each setting has the value of the last variable that gives it one, and its old value if there is
none.  So variables may change places as long as those for one setting keep their order, and
variables that give nothing may be left out. -/
theorem environment_last_wins (settings : Settings) (environment : List (String × String)) :
    (∀ field : Field, LastGiven environment field (field.get settings)
      (field.get (settings.withEnvironment environment))) ∧
    (∀ environment' : List (String × String),
      (∀ field : Field, environment'.filter (fun entry => Names entry.1 field) =
        environment.filter (fun entry => Names entry.1 field)) →
      settings.withEnvironment environment' = settings.withEnvironment environment) ∧
    ∀ environment' : List (String × String),
      environment'.filter HasEffect = environment.filter HasEffect →
      settings.withEnvironment environment' = settings.withEnvironment environment := by
  refine ⟨lastGiven_withEnvironment settings environment, ?_, ?_⟩
  · intro environment' same
    apply Field.ext_get
    intro field
    refine get_withEnvironment_congr ?_ (same field)
    intro entry value hGives
    exact decide_eq_true hGives.1
  · intro environment' same
    apply Field.ext_get
    intro field
    refine get_withEnvironment_congr ?_ same
    intro entry value hGives
    exact decide_eq_true ⟨field, value, hGives⟩

/-- Variables of which half give nothing: one has a text that is no truth value, one has another
prefix, and one comes behind a better one for the same setting. -/
def mixedEnvironment : List (String × String) :=
  [("TALLY_LISTING", "yes"), ("TALLY_History_Size", "+10"), ("TALLY_COLOR", "maybe"),
    ("OTHER_LISTING", "no"), ("TALLY_listing", "2"), ("TALLY_LOG", "debug")]

theorem withEnvironment_mixed :
    let moved := [("TALLY_LOG", "debug"), ("TALLY_History_Size", "+10"), ("TALLY_LISTING", "yes"),
      ("TALLY_listing", "2"), ("TALLY_COLOR", "maybe")]
    let kept := [("TALLY_LISTING", "yes"), ("TALLY_History_Size", "+10"), ("TALLY_LOG", "debug")]
    (∀ field : Field, moved.filter (fun entry => Names entry.1 field) =
      mixedEnvironment.filter (fun entry => Names entry.1 field)) ∧
    withEnvironment {} moved = withEnvironment {} mixedEnvironment ∧
    kept.filter HasEffect = mixedEnvironment.filter HasEffect ∧
    withEnvironment {} kept = withEnvironment {} mixedEnvironment := by
  intro moved kept
  have hMoved (field : Field) : moved.filter (fun entry => Names entry.1 field) =
      mixedEnvironment.filter (fun entry => Names entry.1 field) := by
    cases field <;> decide +kernel
  have hKept : kept.filter HasEffect = mixedEnvironment.filter HasEffect := by decide +kernel
  obtain ⟨-, reorder, leaveOut⟩ := environment_last_wins {} mixedEnvironment
  exact ⟨hMoved, reorder moved hMoved, hKept, leaveOut kept hKept⟩

end Abacus.Settings
