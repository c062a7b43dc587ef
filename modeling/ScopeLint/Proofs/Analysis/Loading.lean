import Mathlib.Data.Bool.AllAny
import Mathlib.Data.List.Nodup
import ScopeLint.Analysis.SettingsFile
import ScopeLint.Proofs.Toml.Documents

/-!
What a plain settings file asks for. Each of its lines gives a setting, a key that is no setting,
or nothing, and no key is given twice. The settings that are loaded have the values given and
the standard ones otherwise, whatever the order of the lines; a width that no dump can use is
refused, and one that is loaded from any text at all is the width of the dump.
-/

set_option autoImplicit false

namespace ScopeLint

open Toml (Entry Node SpellsInteger SpellsLine SpellsLines Table Value)

def ScopeOrder.name : ScopeOrder → String
  | outermostFirst => "outermost-first"
  | innermostFirst => "innermost-first"

namespace SettingsFile

def settingKeys : List String :=
  ["block_scopes", "scope_order", "indent_width"]

/-- What a line of a settings file gives. -/
inductive Line where
  /-- A blank line, or one with a comment only. -/
  | silent
  | blockScopes (value : Bool)
  | scopeOrder (order : ScopeOrder)
  | indentWidth (width : Nat)
  | other (key : String) (value : Value) (unknown : key ∉ settingKeys)
  deriving DecidableEq

namespace Line

def given? : Line → Option Entry
  | silent => none
  | blockScopes value => some ("block_scopes", .truth value)
  | scopeOrder order => some ("scope_order", .text order.name)
  | indentWidth width => some ("indent_width", .integer width)
  | other key value _ => some (key, value)

/-- Which lines give a key. -/
theorem of_given? {line : Line} {key : String} {value : Value}
    (isEntry : line.given? = some (key, value)) :
    (key = "block_scopes" ∧ ∃ given, line = blockScopes given) ∨
      (key = "scope_order" ∧ ∃ given, line = scopeOrder given) ∨
      (key = "indent_width" ∧ ∃ given, line = indentWidth given) ∨ key ∉ settingKeys := by
  cases line with
  | silent => cases isEntry
  | blockScopes given =>
      cases isEntry
      exact .inl ⟨rfl, given, rfl⟩
  | scopeOrder given =>
      cases isEntry
      exact .inr (.inl ⟨rfl, given, rfl⟩)
  | indentWidth given =>
      cases isEntry
      exact .inr (.inr (.inl ⟨rfl, given, rfl⟩))
  | other _ _ unknown =>
      cases isEntry
      exact .inr (.inr (.inr unknown))

def IsSetting : Line → Prop
  | blockScopes _ | scopeOrder _ | indentWidth _ => True
  | silent | other _ _ _ => False

end Line

def entries (lines : List Line) : List Entry :=
  (lines.map Line.given?).reduceOption

theorem mem_entries {lines : List Line} {entry : Entry} :
    entry ∈ entries lines ↔ ∃ line ∈ lines, line.given? = some entry := by
  rw [entries, List.reduceOption_mem_iff, List.mem_map]

/-- A settings file by its lines, which give no key twice. -/
structure Document where
  lines : List Line
  distinct : ((entries lines).map Prod.fst).Nodup

namespace Document

def WrittenAs (document : Document) (text : String) : Prop :=
  SpellsLines (document.lines.map Line.given?) text.toList

/-- The value is the one that a line gives, or the standard one where no line gives any. -/
def Gives {α : Type} (document : Document) (line : α → Line) (standard value : α) : Prop :=
  line value ∈ document.lines ∨ value = standard ∧ ∀ other, line other ∉ document.lines

structure AsksFor (document : Document) (settings : Settings) : Prop where
  blockScopes : document.Gives .blockScopes Settings.standard.blockScopes settings.blockScopes
  scopeOrder : document.Gives .scopeOrder Settings.standard.scopeOrder settings.scopeOrder
  indentWidth : document.Gives .indentWidth Settings.standard.indentWidth settings.indentWidth

end Document

/-! ### One setting -/

/-- How the value of a setting is written, and that it is read back. -/
structure Setting {α : Type} (line : α → Line) where
  key : String
  value : α → Value
  read? : Node → Option α
  entry : ∀ given, (line given).given? = some (key, value given)
  only : ∀ {other : Line} {written : Value}, other.given? = some (key, written) →
    ∃ given, other = line given
  reads : ∀ given, read? (value given).node = some given

namespace Setting

variable {α : Type} {line : α → Line} (setting : Setting line) {document : Document}

theorem value_injective {given other : α} (same : setting.value given = setting.value other) :
    given = other := by
  have sameRead := setting.reads given
  rw [same, setting.reads other] at sameRead
  exact (Option.some.inj sameRead).symm

theorem mem_entries {given : α} (member : line given ∈ document.lines) :
    (setting.key, setting.value given) ∈ entries document.lines :=
  SettingsFile.mem_entries.mpr ⟨_, member, setting.entry given⟩

include setting in
theorem unique {given other : α} (member : line given ∈ document.lines)
    (otherMember : line other ∈ document.lines) : given = other := by
  have same := List.inj_on_of_nodup_map document.distinct (setting.mem_entries member)
    (setting.mem_entries otherMember) rfl
  exact setting.value_injective (Prod.mk.inj same).2

include setting in
theorem gives_unique {standard value other : α} (gives : document.Gives line standard value)
    (givesOther : document.Gives line standard other) : value = other := by
  rcases gives with member | ⟨rfl, none⟩
  · rcases givesOther with otherMember | ⟨-, none⟩
    · exact setting.unique member otherMember
    · exact absurd member (none value)
  · rcases givesOther with otherMember | ⟨rfl, -⟩
    · exact absurd otherMember (none other)
    · rfl

/-- What is looked up under the key is what the lines give. -/
theorem exists_gives (document : Document) (standard : α) :
    ∃ value, setting? (.ofEntries (entries document.lines)) setting.key standard setting.read? =
      some value ∧ document.Gives line standard value := by
  by_cases isGiven : setting.key ∈ (entries document.lines).map Prod.fst
  · obtain ⟨⟨_, written⟩, member, rfl⟩ := List.mem_map.mp isGiven
    obtain ⟨other, otherMember, isEntry⟩ := SettingsFile.mem_entries.mp member
    obtain ⟨given, rfl⟩ := setting.only isEntry
    have found := Table.find?_ofEntries_of_mem document.distinct (setting.mem_entries otherMember)
    refine ⟨given, ?_, .inl otherMember⟩
    rw [setting?, found]
    exact setting.reads given
  · refine ⟨standard, ?_, .inr ⟨rfl, fun other member => ?_⟩⟩
    · rw [setting?, Table.find?_ofEntries_of_notMem isGiven]
    · exact isGiven (List.mem_map_of_mem (setting.mem_entries member))

def blockScopes : Setting .blockScopes where
  key := "block_scopes"
  value := .truth
  read? := truth?
  entry _ := rfl
  reads _ := rfl
  only := by
    intro line written isEntry
    rcases Line.of_given? isEntry with ⟨-, given⟩ | ⟨other, -⟩ | ⟨other, -⟩ | unknown
    · exact given
    · exact absurd other (by decide)
    · exact absurd other (by decide)
    · exact absurd (by decide) unknown

def scopeOrder : Setting .scopeOrder where
  key := "scope_order"
  value order := .text order.name
  read? := order?
  entry _ := rfl
  reads order := by cases order <;> rfl
  only := by
    intro line written isEntry
    rcases Line.of_given? isEntry with ⟨other, -⟩ | ⟨-, given⟩ | ⟨other, -⟩ | unknown
    · exact absurd other (by decide)
    · exact given
    · exact absurd other (by decide)
    · exact absurd (by decide) unknown

theorem natural?_natCast (width : Nat) : natural? (.integer width) = some width := by
  rw [natural?, if_pos (Int.natCast_nonneg width), Int.toNat_natCast]

def indentWidth : Setting .indentWidth where
  key := "indent_width"
  value width := .integer width
  read? := natural?
  entry _ := rfl
  reads := natural?_natCast
  only := by
    intro line written isEntry
    rcases Line.of_given? isEntry with ⟨other, -⟩ | ⟨other, -⟩ | ⟨-, given⟩ | unknown
    · exact absurd other (by decide)
    · exact absurd other (by decide)
    · exact given
    · exact absurd (by decide) unknown

end Setting

/-! ### All settings of a file -/

namespace Document

variable {document other : Document} {settings : Settings}

theorem AsksFor.unique {others : Settings} (asks : document.AsksFor settings)
    (asksToo : document.AsksFor others) : settings = others := by
  cases settings
  cases others
  congr 1
  · exact Setting.blockScopes.gives_unique asks.blockScopes asksToo.blockScopes
  · exact Setting.scopeOrder.gives_unique asks.scopeOrder asksToo.scopeOrder
  · exact Setting.indentWidth.gives_unique asks.indentWidth asksToo.indentWidth

/-- Only the lines with settings count, and not where they stand. -/
theorem AsksFor.congr (asks : document.AsksFor settings)
    (sameSettings : ∀ line : Line, line.IsSetting → (line ∈ other.lines ↔ line ∈ document.lines)) :
    other.AsksFor settings := by
  have gives {α : Type} {line : α → Line} {standard value : α}
      (isSetting : ∀ given, (line given).IsSetting)
      (gives : document.Gives line standard value) : other.Gives line standard value := by
    rcases gives with member | ⟨isStandard, none⟩
    · exact .inl ((sameSettings _ (isSetting value)).mpr member)
    · exact .inr ⟨isStandard, fun given member =>
        none given ((sameSettings _ (isSetting given)).mp member)⟩
  exact
    { blockScopes := gives (fun _ => trivial) asks.blockScopes
      scopeOrder := gives (fun _ => trivial) asks.scopeOrder
      indentWidth := gives (fun _ => trivial) asks.indentWidth }

theorem exists_asksFor (document : Document) :
    ∃ settings, settings? (.ofEntries (entries document.lines)) = some settings ∧
      document.AsksFor settings := by
  obtain ⟨blockScopes, isBlockScopes, givesBlockScopes⟩ :=
    Setting.blockScopes.exists_gives document Settings.standard.blockScopes
  obtain ⟨scopeOrder, isScopeOrder, givesScopeOrder⟩ :=
    Setting.scopeOrder.exists_gives document Settings.standard.scopeOrder
  obtain ⟨indentWidth, isIndentWidth, givesIndentWidth⟩ :=
    Setting.indentWidth.exists_gives document Settings.standard.indentWidth
  refine ⟨⟨blockScopes, scopeOrder, indentWidth⟩, ?_,
    givesBlockScopes, givesScopeOrder, givesIndentWidth⟩
  change setting? _ "block_scopes" _ truth? = _ at isBlockScopes
  change setting? _ "scope_order" _ order? = _ at isScopeOrder
  change setting? _ "indent_width" _ natural? = _ at isIndentWidth
  simp only [settings?, isBlockScopes, isScopeOrder, isIndentWidth]

/-- The width is looked at last, when all that is asked for is known. -/
theorem load_of_writtenAs {text : String} (written : document.WrittenAs text) :
    ∃ settings, document.AsksFor settings ∧ Settings.load text =
      if 1 ≤ settings.indentWidth ∧ settings.indentWidth ≤ 16 then .ok settings
      else .error (.indentWidth settings.indentWidth) := by
  obtain ⟨settings, isSettings, asks⟩ := document.exists_asksFor
  have parsed : Toml.parse? text = some (.ofEntries (entries document.lines)) :=
    Toml.parse?_lines written document.distinct
  refine ⟨settings, asks, ?_⟩
  rw [Settings.load, parsed, Option.bind_some, isSettings]
  rfl

theorem load_eq_error {text : String} (written : document.WrittenAs text) {width : Nat}
    (member : .indentWidth width ∈ document.lines) (outside : width = 0 ∨ 16 < width) :
    Settings.load text = .error (.indentWidth width) := by
  obtain ⟨settings, asks, isLoaded⟩ := load_of_writtenAs written
  have isWidth : settings.indentWidth = width :=
    Setting.indentWidth.gives_unique asks.indentWidth (.inl member)
  rw [isLoaded, isWidth]
  exact if_neg (by omega)

theorem exists_load {text : String} (written : document.WrittenAs text)
    (inside : ∀ width, .indentWidth width ∈ document.lines → 1 ≤ width ∧ width ≤ 16) :
    ∃ settings, document.AsksFor settings ∧ Settings.load text = .ok settings := by
  obtain ⟨settings, asks, isLoaded⟩ := load_of_writtenAs written
  have within : 1 ≤ settings.indentWidth ∧ settings.indentWidth ≤ 16 := by
    rcases asks.indentWidth with member | ⟨isStandard, -⟩
    · exact inside _ member
    · rw [isStandard]
      decide
  exact ⟨settings, asks, isLoaded.trans (if_pos within)⟩

theorem load_congr {text otherText : String} (written : document.WrittenAs text)
    (otherWritten : other.WrittenAs otherText)
    (sameSettings : ∀ line : Line, line.IsSetting → (line ∈ other.lines ↔ line ∈ document.lines)) :
    Settings.load otherText = Settings.load text := by
  obtain ⟨settings, asks, isLoaded⟩ := load_of_writtenAs written
  obtain ⟨others, asksToo, isLoadedToo⟩ := load_of_writtenAs otherWritten
  rw [isLoadedToo, isLoaded, asksToo.unique (asks.congr sameSettings)]

/-- What becomes of a settings file, told from its lines. -/
structure LoadsFrom (document : Document) (text : String) : Prop where
  refused : ∀ width, .indentWidth width ∈ document.lines → width = 0 ∨ 16 < width →
    Settings.load text = .error (.indentWidth width)
  loaded : (∀ width, .indentWidth width ∈ document.lines → 1 ≤ width ∧ width ≤ 16) →
    ∃ settings, document.AsksFor settings ∧ Settings.load text = .ok settings
  inAnyOrder : ∀ (other : Document) (otherText : String), other.WrittenAs otherText →
    (∀ line : Line, line.IsSetting → (line ∈ other.lines ↔ line ∈ document.lines)) →
    Settings.load otherText = Settings.load text

end Document

end SettingsFile

/-- A width that indents something, and that a dump does not cut. -/
structure Settings.WidthFits (settings : Settings) : Prop where
  least : 1 ≤ settings.indentWidth
  greatest : settings.indentWidth ≤ 16
  uncut : ∀ level, indentation settings.indentWidth level =
    String.ofList (List.replicate (level * settings.indentWidth) ' ')

theorem Settings.widthFits_of_load {text : String} {settings : Settings}
    (isLoaded : load text = .ok settings) : settings.WidthFits := by
  unfold load at isLoaded
  split at isLoaded
  next => cases isLoaded
  next =>
      split at isLoaded
      next within =>
          cases isLoaded
          refine ⟨within.1, within.2, fun level => ?_⟩
          rw [indentation, Nat.min_eq_left within.2]
      next => cases isLoaded

namespace SettingsFile

/-- A settings file is loaded as its lines ask for, in any order; and whatever text settings were
loaded from, their width is one that a dump uses as it is. -/
theorem loadsFrom_and_widthFits :
    (∀ (document : Document) (text : String), document.WrittenAs text → document.LoadsFrom text) ∧
      ∀ (text : String) (settings : Settings), Settings.load text = .ok settings →
        settings.WidthFits := by
  refine ⟨fun document text written => ?_, fun text settings => Settings.widthFits_of_load⟩
  exact
    { refused := fun width => Document.load_eq_error written
      loaded := Document.exists_load written
      inAnyOrder := fun other otherText => Document.load_congr written }

/-- No width is cut on its way to the check, however long it is. -/
example :
    Settings.load "block_scopes = true\nindent_width = 9223372036854775807" =
      .error (.indentWidth 9223372036854775807) := by
  decide +kernel

/-- A width in a comment, a setting in a string, and keys that look like a number or a setting. -/
def exampleFile : Document where
  lines := [.silent, .scopeOrder .innermostFirst, .silent,
    .other "indent-width" (.integer (-17)) (by decide), .indentWidth 16,
    .other "0" (.text "block_scopes = true") (by decide)]
  distinct := by decide

def exampleFileText : String :=
  "# indent_width = 0\n\tscope_order='innermost-first' # last\r\n\n" ++
    "indent-width = -1_7\nindent_width = 16\n0 = \"block_scopes = true\""

/-- The order is the one thing asked for besides the width, which is the widest there is. -/
theorem exampleFile_loaded :
    exampleFile.WrittenAs exampleFileText ∧
      Settings.load exampleFileText = .ok ⟨false, .innermostFirst, 16⟩ ∧
      (⟨false, .innermostFirst, 16⟩ : Settings).WidthFits := by
  have comment : SpellsLine none ('#' :: " indent_width = 0".toList) :=
    @SpellsLine.comment [] _ nofun (List.all_eq_true.mp (by decide))
  have order : SpellsLine (some ("scope_order", .text "innermost-first"))
      "\tscope_order='innermost-first' # last".toList :=
    @SpellsLine.entry _ _ ['\t'] [] [] _ [' ', '#', ' ', 'l', 'a', 's', 't'] (by decide)
      (@Value.Spells.text .single "innermost-first" (List.all_iff_forall_prop.mp (by decide)))
      (by decide) nofun nofun
      (@SpellsLine.comment [' '] _ (by decide) (List.all_eq_true.mp (by decide)))
  have negative : SpellsLine (some ("indent-width", .integer (-17)))
      "indent-width = -1_7".toList :=
    @SpellsLine.entry "indent-width" (.integer (-17)) [] [' '] [' '] ['-', '1', '_', '7'] []
      (by decide)
      (.integer (@SpellsInteger.minus ['1', '7'] _ ⟨.separated rfl (.one rfl), by decide⟩)
        (by decide) (by decide))
      nofun (by decide) (by decide) (.blank nofun)
  have width : SpellsLine (some ("indent_width", .integer 16)) "indent_width = 16".toList :=
    @SpellsLine.entry "indent_width" (.integer 16) [] [' '] [' '] ['1', '6'] [] (by decide)
      (.integer (Toml.spellsInteger_toDigits 16) (by decide) (by decide))
      nofun (by decide) (by decide) (.blank nofun)
  have string : SpellsLine (some ("0", .text "block_scopes = true"))
      "0 = \"block_scopes = true\"".toList :=
    @SpellsLine.entry "0" (.text "block_scopes = true") [] [' '] [' '] _ [] (by decide)
      (@Value.Spells.text .double "block_scopes = true" (List.all_iff_forall_prop.mp (by decide)))
      nofun (by decide) (by decide) (.blank nofun)
  have lines := SpellsLines.cons comment .alone (.cons order .afterReturn
    (.cons (@SpellsLine.blank [] nofun) .alone
      (.cons negative .alone (.cons width .alone (.last string)))))
  have written : exampleFile.WrittenAs exampleFileText := by
    refine Eq.mp (congrArg (SpellsLines _) ?_) lines
    decide +kernel
  have asked : exampleFile.AsksFor ⟨false, .innermostFirst, 16⟩ :=
    ⟨.inr ⟨rfl, by decide⟩, .inl (by decide), .inl (by decide)⟩
  have inside (width : Nat) (member : .indentWidth width ∈ exampleFile.lines) :
      1 ≤ width ∧ width ≤ 16 := by
    rw [Setting.indentWidth.gives_unique (.inl member) asked.indentWidth]
    decide
  obtain ⟨settings, asks, isLoaded⟩ :=
    (loadsFrom_and_widthFits.1 exampleFile exampleFileText written).loaded inside
  rw [asks.unique asked] at isLoaded
  exact ⟨written, isLoaded, loadsFrom_and_widthFits.2 exampleFileText _ isLoaded⟩

end SettingsFile

end ScopeLint
