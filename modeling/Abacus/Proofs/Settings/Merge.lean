import Abacus.Settings

/-! Documents on top of settings.  Merging writes the settings as a document, lets it take over the
keys of the one on top, and reads them back.  So each setting is what the document on top says, or
else what it was before; and nothing changes if one of the four keys has an item of a wrong kind. -/

namespace Abacus.Settings

/-! ### What items stand for -/

def IsFlag (item : Toml.Item) (value : Bool) : Prop := item = .boolean value

/-- A date or time stands for its canonical text, whichever way it was written. -/
def IsText (item : Toml.Item) (value : String) : Prop :=
  item = .text value ∨ ∃ moment, item = .moment moment ∧ moment.text = value

def IsSize (item : Toml.Item) (value : Nat) : Prop := item = .integer value

theorem flagOf?_eq_some_iff (item : Toml.Item) (value : Bool) :
    flagOf? item = some value ↔ IsFlag item value := by
  cases item <;> simp [flagOf?, IsFlag]

theorem textOf?_eq_some_iff (item : Toml.Item) (value : String) :
    textOf? item = some value ↔ IsText item value := by
  cases item <;> simp [textOf?, IsText]

theorem sizeOf?_eq_some_iff (item : Toml.Item) (value : Nat) :
    sizeOf? item = some value ↔ IsSize item value := by
  unfold sizeOf?
  split
  · next size =>
    rw [IsSize, Option.some_inj, Toml.Item.integer.injEq, Int.ofNat_eq_natCast, Int.natCast_inj]
  · next other =>
    have hOther : ¬ IsSize item value := other value
    simp [hOther]

/-! ### One setting -/

section Setting

variable {α : Type} {document document' both below : Toml.Entries} {key : String}
  {Means : Toml.Item → α → Prop} {old between new : α}

/-- The new value of a setting is what the document says under its key, or else the old one. -/
def OnTop (document : Toml.Entries) (key : String) (Means : Toml.Item → α → Prop) (old new : α) :
    Prop :=
  match document.get? key with
  | none => new = old
  | some item => Means item new

/-- What the document has under a key, if anything, stands for a value. -/
def HasKind (document : Toml.Entries) (key : String) (Means : Toml.Item → α → Prop) : Prop :=
  ∀ item, document.get? key = some item → ∃ value, Means item value

theorem fieldOf?_eq_some_iff {read : Toml.Item → Option α}
    (h : ∀ item value, read item = some value ↔ Means item value) :
    fieldOf? document key read old = some new ↔ OnTop document key Means old new := by
  unfold fieldOf? OnTop
  cases document.get? key with
  | none => exact Option.some_inj.trans eq_comm
  | some item => exact h item new

theorem exists_onTop_iff : (∃ new, OnTop document key Means old new) ↔ HasKind document key Means := by
  unfold OnTop HasKind
  cases document.get? key with
  | none => simp
  | some item => simp

/-- What is written below the document counts as the old value, whatever the default. -/
theorem onTop_extend_iff {item : Toml.Item} {default : α} (hBelow : below.get? key = some item)
    (hItem : ∀ value, Means item value ↔ value = old) :
    OnTop (below.extend document) key Means default new ↔ OnTop document key Means old new := by
  unfold OnTop
  rw [Store.get?_extend, hBelow]
  cases document.get? key with
  | none => exact hItem new
  | some upper => rfl

theorem OnTop.trans (h : OnTop document key Means old between)
    (h' : OnTop document' key Means between new)
    (hBoth : both.get? key = (document'.get? key).or (document.get? key)) :
    OnTop both key Means old new := by
  unfold OnTop at *
  rw [hBoth]
  cases hUpper : document'.get? key with
  | none =>
    rw [hUpper] at h'
    rw [h']
    exact h
  | some item =>
    rw [hUpper] at h'
    exact h'

theorem OnTop.congr (h : OnTop document key Means old new)
    (hSame : document'.get? key = document.get? key) : OnTop document' key Means old new := by
  unfold OnTop
  rw [hSame]
  exact h

end Setting

/-! ### All settings -/

/-- The keys that have a meaning. -/
def keys : List String := ["listing", "color", "log", "history_size"]

/-- Each new setting is what the document says, or else the old one. -/
structure MergedFrom (document : Toml.Entries) (old new : Settings) : Prop where
  listing : OnTop document "listing" IsFlag old.listing new.listing
  color : OnTop document "color" IsFlag old.color new.color
  log : OnTop document "log" IsText old.log new.log
  historySize : OnTop document "history_size" IsSize old.historySize new.historySize

/-- Each key that has a meaning has an item of the right kind, or none. -/
structure WellTyped (document : Toml.Entries) : Prop where
  listing : HasKind document "listing" IsFlag
  color : HasKind document "color" IsFlag
  log : HasKind document "log" IsText
  historySize : HasKind document "history_size" IsSize

variable {document document' both below : Toml.Entries} {old between new : Settings}

theorem exists_mergedFrom_iff : (∃ new, MergedFrom document old new) ↔ WellTyped document := by
  constructor
  · rintro ⟨new, h⟩
    exact ⟨exists_onTop_iff.mp ⟨_, h.listing⟩, exists_onTop_iff.mp ⟨_, h.color⟩,
      exists_onTop_iff.mp ⟨_, h.log⟩, exists_onTop_iff.mp ⟨_, h.historySize⟩⟩
  · intro h
    obtain ⟨listing, hListing⟩ := exists_onTop_iff.mpr h.listing
    obtain ⟨color, hColor⟩ := exists_onTop_iff.mpr h.color
    obtain ⟨log, hLog⟩ := exists_onTop_iff.mpr h.log
    obtain ⟨size, hSize⟩ := exists_onTop_iff.mpr h.historySize
    exact ⟨⟨listing, color, log, size⟩, hListing, hColor, hLog, hSize⟩

/-- Reading a document is merging it into the defaults. -/
theorem ofDocument?_eq_some_iff : ofDocument? document = some new ↔ MergedFrom document {} new := by
  simp only [ofDocument?, bind, Option.bind_eq_some_iff, pure, Option.some.injEq]
  constructor
  · rintro ⟨listing, hListing, color, hColor, log, hLog, size, hSize, rfl⟩
    exact ⟨(fieldOf?_eq_some_iff flagOf?_eq_some_iff).mp hListing,
      (fieldOf?_eq_some_iff flagOf?_eq_some_iff).mp hColor,
      (fieldOf?_eq_some_iff textOf?_eq_some_iff).mp hLog,
      (fieldOf?_eq_some_iff sizeOf?_eq_some_iff).mp hSize⟩
  · intro h
    exact ⟨_, (fieldOf?_eq_some_iff flagOf?_eq_some_iff).mpr h.listing,
      _, (fieldOf?_eq_some_iff flagOf?_eq_some_iff).mpr h.color,
      _, (fieldOf?_eq_some_iff textOf?_eq_some_iff).mpr h.log,
      _, (fieldOf?_eq_some_iff sizeOf?_eq_some_iff).mpr h.historySize, rfl⟩

theorem toDocument?_isSome_iff : (∃ below, toDocument? old = some below) ↔
    old.historySize ≤ largestInteger := by
  simp [toDocument?]

theorem get?_of_toDocument? (h : toDocument? old = some below) :
    below.get? "listing" = some (.boolean old.listing) ∧
      below.get? "color" = some (.boolean old.color) ∧ below.get? "log" = some (.text old.log) ∧
      below.get? "history_size" = some (.integer old.historySize) := by
  rw [toDocument?, Option.ite_none_right_eq_some] at h
  obtain ⟨-, hBelow⟩ := h
  cases hBelow
  exact ⟨rfl, rfl, rfl, rfl⟩

theorem mergedFrom_extend_iff (base : Settings) (h : toDocument? old = some below) :
    MergedFrom (below.extend document) base new ↔ MergedFrom document old new := by
  obtain ⟨hListing, hColor, hLog, hSize⟩ := get?_of_toDocument? h
  have hFlag (flag value : Bool) : IsFlag (.boolean flag) value ↔ value = flag := by
    simp [IsFlag, eq_comm]
  have hText (text value : String) : IsText (.text text) value ↔ value = text := by
    simp [IsText, eq_comm]
  have hNat (size value : Nat) : IsSize (.integer size) value ↔ value = size := by
    rw [IsSize, Toml.Item.integer.injEq, Int.natCast_inj, eq_comm]
  constructor
  · intro h
    exact ⟨(onTop_extend_iff hListing (hFlag _)).mp h.listing,
      (onTop_extend_iff hColor (hFlag _)).mp h.color, (onTop_extend_iff hLog (hText _)).mp h.log,
      (onTop_extend_iff hSize (hNat _)).mp h.historySize⟩
  · intro h
    exact ⟨(onTop_extend_iff hListing (hFlag _)).mpr h.listing,
      (onTop_extend_iff hColor (hFlag _)).mpr h.color, (onTop_extend_iff hLog (hText _)).mpr h.log,
      (onTop_extend_iff hSize (hNat _)).mpr h.historySize⟩

theorem MergedFrom.trans (h : MergedFrom document old between)
    (h' : MergedFrom document' between new)
    (hBoth : ∀ key, both.get? key = (document'.get? key).or (document.get? key)) :
    MergedFrom both old new where
  listing := h.listing.trans h'.listing (hBoth _)
  color := h.color.trans h'.color (hBoth _)
  log := h.log.trans h'.log (hBoth _)
  historySize := h.historySize.trans h'.historySize (hBoth _)

theorem MergedFrom.congr (h : MergedFrom document old new)
    (hSame : ∀ key ∈ keys, document'.get? key = document.get? key) :
    MergedFrom document' old new where
  listing := h.listing.congr (hSame _ (by decide))
  color := h.color.congr (hSame _ (by decide))
  log := h.log.congr (hSame _ (by decide))
  historySize := h.historySize.congr (hSame _ (by decide))

theorem ofDocument?_congr (hSame : ∀ key ∈ keys, document'.get? key = document.get? key) :
    ofDocument? document' = ofDocument? document := by
  apply Option.ext
  intro new
  rw [ofDocument?_eq_some_iff, ofDocument?_eq_some_iff]
  exact ⟨fun h => h.congr fun key hKey => (hSame key hKey).symm, fun h => h.congr hSame⟩

/-! ### Merging -/

theorem mergeDocument_apply (document : Toml.Entries) (old : Settings) :
    mergeDocument document old =
      match old.toDocument? with
      | none => .error .unwritable old
      | some below =>
        match ofDocument? (below.extend document) with
        | none => .error .mistyped old
        | some new => .ok () new := by
  show (match old.toDocument? with
    | none => throw .unwritable
    | some below =>
      match ofDocument? (below.extend document) with
      | none => throw .mistyped
      | some merged => EStateM.set merged : EStateM MergeError Settings Unit) old = _
  cases old.toDocument? with
  | none => rfl
  | some below =>
    dsimp only
    cases ofDocument? (below.extend document) <;> rfl

theorem merge_apply (text : String) (old : Settings) :
    merge text old =
      match Toml.parse? text with
      | none => .error .malformed old
      | some document => mergeDocument document old := by
  unfold merge
  cases Toml.parse? text <;> rfl

theorem mergeDocument_eq_ok_iff :
    mergeDocument document old = .ok () new ↔
      old.historySize ≤ largestInteger ∧ MergedFrom document old new := by
  rw [mergeDocument_apply, ← toDocument?_isSome_iff]
  cases hBelow : old.toDocument? with
  | none => simp
  | some below =>
    rw [← mergedFrom_extend_iff {} hBelow, ← ofDocument?_eq_some_iff]
    dsimp only
    cases ofDocument? (below.extend document) <;> simp

/-- Settings that cannot be merged stay as they were. -/
theorem eq_of_merge_eq_error {text : String} {e : MergeError} {after : Settings}
    (h : merge text old = .error e after) : after = old := by
  rw [merge_apply] at h
  split at h
  · cases h
    rfl
  · rw [mergeDocument_apply] at h
    split at h
    · cases h
      rfl
    · split at h
      · cases h
        rfl
      · cases h

/-- Keys without a meaning make no difference. -/
theorem mergeDocument_congr (hSame : ∀ key ∈ keys, document'.get? key = document.get? key)
    (old : Settings) : mergeDocument document' old = mergeDocument document old := by
  rw [mergeDocument_apply, mergeDocument_apply]
  cases old.toDocument? with
  | none => rfl
  | some below =>
    have hExtended : ∀ key ∈ keys,
        (below.extend document').get? key = (below.extend document).get? key := by
      intro key hKey
      rw [Store.get?_extend, Store.get?_extend, hSame key hKey]
    dsimp only
    rw [ofDocument?_congr hExtended]

theorem merge_of_parse? {text : String} (h : Toml.parse? text = some document) (old : Settings) :
    merge text old = mergeDocument document old := by
  rw [merge_apply, h]

theorem merge?_eq_some_iff {text : String} :
    old.merge? text = some new ↔ merge text old = .ok () new := by
  unfold merge?
  cases merge text old <;> simp

/-- Merging a document gives each setting the value that the document has for it, and keeps the
others; it goes through if the items under the four keys are of the right kinds, and changes nothing
if not.  Two documents, one after the other, do what one document does that has the keys of both,
those of the second over those of the first. -/
theorem merge_on_top (text : String) (settings : Settings) :
    (Toml.parse? text = none → merge text settings = .error .malformed settings) ∧
    (∀ e after, merge text settings = .error e after → after = settings) ∧
    ∀ document, Toml.parse? text = some document → settings.historySize ≤ largestInteger →
      ((∃ after, merge text settings = .ok () after) ↔ WellTyped document) ∧
      (∀ after, merge text settings = .ok () after → MergedFrom document settings after) ∧
      (∀ text' document', Toml.parse? text' = some document' →
        (∀ key ∈ keys, document'.get? key = document.get? key) →
        merge text' settings = merge text settings) ∧
      ∀ text' document' both between after, Toml.parse? text' = some document' →
        merge text settings = .ok () between → merge text' between = .ok () after →
        (∀ key, both.get? key = (document'.get? key).or (document.get? key)) →
        mergeDocument both settings = .ok () after := by
  refine ⟨?_, fun e after => eq_of_merge_eq_error, ?_⟩
  · intro hParse
    rw [merge_apply, hParse]
  · intro document hParse hSize
    rw [merge_of_parse? hParse]
    refine ⟨?_, ?_, ?_, ?_⟩
    · simp only [mergeDocument_eq_ok_iff, hSize, true_and]
      exact exists_mergedFrom_iff
    · intro after h
      exact (mergeDocument_eq_ok_iff.mp h).2
    · intro text' document' hParse' hSame
      rw [merge_of_parse? hParse', mergeDocument_congr hSame]
    · intro text' document' both between after hParse' h h' hBoth
      rw [merge_of_parse? hParse'] at h'
      have hFirst := (mergeDocument_eq_ok_iff.mp h).2
      have hSecond := (mergeDocument_eq_ok_iff.mp h').2
      exact mergeDocument_eq_ok_iff.mpr ⟨hSize, hFirst.trans hSecond hBoth⟩

/-- Two documents that have a key in common. -/
def lowerText : String := "listing = true\nhistory_size = 5\nunknown = 1"

def upperText : String := "history_size = 7\ncolor = false"

theorem merge_on_top_twice :
    ∃ lower upper, Toml.parse? lowerText = some lower ∧ Toml.parse? upperText = some upper ∧
      mergeDocument (lower.extend upper) {} =
        .ok () { listing := true, color := false, historySize := 7 } := by
  have hFirst : merge lowerText {} = .ok () { listing := true, historySize := 5 } :=
    merge?_eq_some_iff.mp (by decide +kernel)
  have hSecond : merge upperText { listing := true, historySize := 5 } =
      .ok () { listing := true, color := false, historySize := 7 } :=
    merge?_eq_some_iff.mp (by decide +kernel)
  obtain ⟨lower, hLower⟩ := Option.isSome_iff_exists.mp
    (by decide +kernel : (Toml.parse? lowerText).isSome = true)
  obtain ⟨upper, hUpper⟩ := Option.isSome_iff_exists.mp
    (by decide +kernel : (Toml.parse? upperText).isSome = true)
  obtain ⟨-, -, hMerge⟩ := merge_on_top lowerText {}
  obtain ⟨-, -, -, hTwice⟩ := hMerge lower hLower (by decide)
  exact ⟨lower, upper, hLower, hUpper,
    hTwice upperText upper _ _ _ hUpper hFirst hSecond (Store.get?_extend lower upper)⟩

/-- A date is taken for a text. -/
theorem merge_moment :
    ∃ document moment, Toml.parse? "log = 1979-05-27" = some document ∧
      document.get? "log" = some (.moment moment) ∧
      merge "log = 1979-05-27" {} = .ok () { log := "1979-05-27" } := by
  have hMerge : merge "log = 1979-05-27" {} = .ok () { log := "1979-05-27" } :=
    merge?_eq_some_iff.mp (by decide +kernel)
  have hItem : ((Toml.parse? "log = 1979-05-27").bind (·.get? "log")).any
      (fun item => item matches .moment _) = true := by decide +kernel
  obtain ⟨item, hGet, hMoment⟩ := (Option.any_eq_true ..).mp hItem
  obtain ⟨document, hParse, hGet⟩ := Option.bind_eq_some_iff.mp hGet
  cases item with
  | moment moment => exact ⟨document, moment, hParse, hGet, hMerge⟩
  | _ => cases hMoment

end Abacus.Settings
