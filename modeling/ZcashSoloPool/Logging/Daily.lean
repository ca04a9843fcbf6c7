import ZcashSoloPool.Bytes.Utf8
import ZcashSoloPool.Calendar.Civil
import ZcashSoloPool.Collections.Newest
import ZcashSoloPool.Collections.OrderedMap
import ZcashSoloPool.Logging.Stream
import Mathlib.Data.Char
import Mathlib.Data.List.Lex

/-!
# A log for each day

A logger that rotates by date writes into a file whose name has the day in it.
When the day changes it removes old files, but for a number of the newest.  All
that is ever written stands in the files of its days in order, and a file that is
missing has so many newer ones.
-/

namespace ZcashSoloPool.Logging

open ZcashSoloPool.Bytes
open ZcashSoloPool.Calendar
open ZcashSoloPool.Collections
open ZcashSoloPool.JavaScript

/-! ## Names of the files -/

/-- Characters that stand for themselves in a regular expression. -/
def isPlain (c : Char) : Bool :=
  c.isAlphanum || c == '_' || c == '-'

/-- The parts of the names, which a pattern takes literally but for the dot in
front of the extension, and the number of files to keep. -/
structure DailyConfig where
  logBase : Text
  extension : Text
  maxFiles : Nat
  plain : (logBase ++ extension).all isPlain = true

namespace DailyConfig

/-- `_logExt`. -/
def logExt (config : DailyConfig) : Text :=
  '.' :: config.extension

/-- `_datedFilePath`, inside the directory of the log. -/
def datedFilePath (config : DailyConfig) (date : Text) : Text :=
  config.logBase ++ '-' :: (date ++ config.logExt)

/-- The digits and dashes of a date. -/
def isDate : Text → Bool
  | [a, b, c, d, '-', e, f, '-', g, h] => [a, b, c, d, e, f, g, h].all Char.isDigit
  | _ => false

/-- `pattern.test`. -/
def isDated (config : DailyConfig) (name : Text) : Bool :=
  let rest := name.drop (config.logBase.length + 1)
  decide (name.take (config.logBase.length + 1) = config.logBase ++ ['-']) &&
    isDate (rest.take 10) && decide (rest.drop 10 = config.logExt)

end DailyConfig

/-! ## The logger -/

/-- The files of the directory by their names. -/
abbrev Directory :=
  OrderedMap Text (List UInt8)

/-- A logger that rotates by date, and the directory it writes to. -/
structure DailyLogger where
  config : DailyConfig
  currentDate : Text
  buffer : List Text
  bufferBytes : Nat
  lastRotateCheckAt : Nat
  flushTimer : Bool
  directory : Directory

/-- What the logger reacts to, with the time in milliseconds since 1970. -/
inductive DailyEvent where
  | write (line : Text) (now : Nat)
  | timer (now : Nat)
  | shutdown (now : Nat)

/-- The time of an event. -/
def DailyEvent.now : DailyEvent → Nat
  | write _ now => now
  | timer now => now
  | shutdown now => now

/-- The day of a time. -/
def dayOf (now : Nat) : Nat :=
  now / 86400000

/-- `_todayUTC`, up to the year 9999. -/
def todayUTC (now : Nat) : Text :=
  (civil (dayOf now)).text

/-- `fs.appendFileSync`. -/
def appendFile (directory : Directory) (name : Text) (chunk : List UInt8) : Directory :=
  directory.set name ((directory.get? name).getD [] ++ chunk)

/-- The names of the directory that the pattern accepts. -/
def datedNames (config : DailyConfig) (directory : Directory) : List Text :=
  (directory.entries.map Prod.fst).filter config.isDated

/-- `_pruneOldLogs`, when every operation succeeds. -/
def pruneOldLogs (config : DailyConfig) (directory : Directory) : Directory :=
  ((lastFirst (datedNames config directory)).drop config.maxFiles).foldl OrderedMap.delete directory

namespace DailyLogger

/-- The constructor. -/
def new (config : DailyConfig) (directory : Directory) (now : Nat) : DailyLogger where
  config := config
  currentDate := todayUTC now
  buffer := []
  bufferBytes := 0
  lastRotateCheckAt := 0
  flushTimer := true
  directory := directory

/-- `this.file`. -/
def file (logger : DailyLogger) : Text :=
  logger.config.datedFilePath logger.currentDate

/-- Move on to another day. -/
def switchTo (logger : DailyLogger) (today : Text) : DailyLogger :=
  let flushed : DailyLogger :=
    if logger.buffer.isEmpty then logger
    else { logger with
      buffer := []
      bufferBytes := 0
      directory := appendFile logger.directory logger.file (encodeUtf8 logger.buffer.flatten) }
  { flushed with
    currentDate := today
    directory := pruneOldLogs flushed.config flushed.directory }

/-- `rotateIfNeeded`. -/
def rotateIfNeeded (logger : DailyLogger) (now : Nat) : DailyLogger :=
  if (now : ℤ) - logger.lastRotateCheckAt < rotateCheckIntervalMs then logger
  else
    let checked : DailyLogger := { logger with lastRotateCheckAt := now }
    if todayUTC now ≠ logger.currentDate then checked.switchTo (todayUTC now) else checked

/-- `flush`. -/
def flush (logger : DailyLogger) (now : Nat) : DailyLogger :=
  if logger.buffer.isEmpty then logger
  else
    let chunk := encodeUtf8 logger.buffer.flatten
    let rotated := rotateIfNeeded { logger with buffer := [], bufferBytes := 0 } now
    { rotated with directory := appendFile rotated.directory rotated.file chunk }

/-- `write`. -/
def write (logger : DailyLogger) (line : Text) (now : Nat) : DailyLogger :=
  let entry := line ++ ['\n']
  let buffered : DailyLogger := { logger with
    buffer := logger.buffer ++ [entry]
    bufferBytes := logger.bufferBytes + unitLength entry }
  if flushMaxBytes ≤ buffered.bufferBytes then buffered.flush now else buffered

/-- One reaction; a timer that was cleared does not fire. -/
def react (logger : DailyLogger) : DailyEvent → DailyLogger
  | .write line now => logger.write line now
  | .timer now => if logger.flushTimer then logger.flush now else logger
  | .shutdown now => flush { logger with flushTimer := false } now

end DailyLogger

/-- The line that an event logs. -/
def DailyEvent.line : DailyEvent → Text
  | write line _ => line ++ ['\n']
  | timer _ => []
  | shutdown _ => []

/-! ## The order of the names -/

theorem append_lt_append {first second : Text} (lt : first < second)
    (length : first.length = second.length) (rest later : Text) :
    first ++ rest < second ++ later := by
  induction first generalizing second with
  | nil =>
      cases second with
      | nil => exact absurd lt (List.not_lt_nil [])
      | cons c tail => simp at length
  | cons c tail ih =>
      cases second with
      | nil => simp at length
      | cons d others =>
          rw [List.cons_lt_cons_iff] at lt
          rw [List.cons_append, List.cons_append, List.cons_lt_cons_iff]
          rcases lt with less | ⟨same, less⟩
          · exact Or.inl less
          · exact Or.inr ⟨same, ih less (Nat.succ.inj length)⟩

theorem append_left_lt {rest later : Text} (lt : rest < later) (front : Text) :
    front ++ rest < front ++ later := by
  induction front with
  | nil => exact lt
  | cons c tail ih =>
      rw [List.cons_append, List.cons_append, List.cons_lt_cons_iff]
      exact Or.inr ⟨rfl, ih⟩

theorem length_text (date : Civil) : date.text.length = 10 :=
  rfl

namespace DailyConfig

/-- The file of a later day has the later name. -/
theorem datedFilePath_lt (config : DailyConfig) {day other : Nat} (lt : day < other)
    (bounded : other ≤ lastDay) :
    config.datedFilePath (civil day).text < config.datedFilePath (civil other).text := by
  apply append_left_lt
  rw [List.cons_lt_cons_iff]
  exact Or.inr ⟨rfl, append_lt_append (text_civil_lt lt bounded) rfl _ _⟩

theorem isDigit_digitChar : ∀ n < 10, (Nat.digitChar n).isDigit = true := by
  decide

/-- The text of a date matches the pattern. -/
theorem isDate_text {day : Nat} (bounded : day ≤ lastDay) : isDate (civil day).text = true := by
  have bounds := civil_bounds bounded
  have digits : ∀ n < 100, (Nat.digitChar (n / 10)).isDigit = true ∧
      (Nat.digitChar (n % 10)).isDigit = true :=
    fun n small => ⟨isDigit_digitChar _ (by omega), isDigit_digitChar _ (by omega)⟩
  have century := digits ((civil day).year / 100) (by omega)
  have year := digits ((civil day).year % 100) (by omega)
  have month := digits (civil day).month bounds.2.1
  have inMonth := digits (civil day).day bounds.2.2
  simp only [Civil.text, twoDigits, List.cons_append, List.nil_append, isDate, List.all_cons,
    List.all_nil, century, year, month, inMonth, Bool.and_self]

theorem isDated_datedFilePath (config : DailyConfig) {day : Nat} (bounded : day ≤ lastDay) :
    config.isDated (config.datedFilePath (civil day).text) = true := by
  have cut : (config.datedFilePath (civil day).text).drop (config.logBase.length + 1) =
      (civil day).text ++ config.logExt := by
    simp [datedFilePath, List.drop_append]
  have front : (config.datedFilePath (civil day).text).take (config.logBase.length + 1) =
      config.logBase ++ ['-'] := by
    simp [datedFilePath, List.take_append]
  have date : ((civil day).text ++ config.logExt).take 10 = (civil day).text :=
    List.take_left' (length_text _)
  have ext : ((civil day).text ++ config.logExt).drop 10 = config.logExt :=
    List.drop_left' (length_text _)
  simp [isDated, cut, front, date, ext, isDate_text bounded]

end DailyConfig

/-! ## The directory -/

theorem nodup_datedNames (config : DailyConfig) (directory : Directory) :
    (datedNames config directory).Nodup :=
  directory.nodup.sublist List.filter_sublist

/-- A name that matches is listed exactly if there is a file. -/
theorem mem_datedNames {config : DailyConfig} {directory : Directory} {name : Text} :
    name ∈ datedNames config directory ↔
      config.isDated name = true ∧ ∃ content, directory.get? name = some content := by
  rw [datedNames, List.mem_filter, List.mem_map, and_comm]
  refine and_congr_right fun _ => ?_
  constructor
  · rintro ⟨⟨other, content⟩, member, rfl⟩
    exact ⟨content, OrderedMap.get?_eq_some_iff.mpr member⟩
  · rintro ⟨content, found⟩
    exact ⟨(name, content), OrderedMap.get?_eq_some_iff.mp found, rfl⟩

/-- Removing names one by one removes their entries. -/
theorem entries_foldl_delete (names : List Text) (directory : Directory) :
    (names.foldl OrderedMap.delete directory).entries =
      directory.entries.filter fun entry => decide (entry.1 ∉ names) := by
  induction names generalizing directory with
  | nil => simp
  | cons name rest ih =>
      rw [List.foldl_cons, ih, OrderedMap.delete, OrderedMap.filter, List.filter_filter]
      apply List.filter_congr
      intro entry _
      by_cases same : entry.1 = name <;> simp [same]

/-- The pruned directory lists the newest of the names that match. -/
theorem datedNames_pruneOldLogs (config : DailyConfig) (directory : Directory) :
    datedNames config (pruneOldLogs config directory) =
      keepGreatest config.maxFiles (datedNames config directory) := by
  have swapped : ∀ names : List Text,
      ((directory.entries.filter fun entry => decide (entry.1 ∉ names)).map Prod.fst).filter
          config.isDated =
        (datedNames config directory).filter fun name => decide (name ∉ names) := by
    intro names
    simp only [datedNames, List.filter_map, List.filter_filter]
    congr 1
    apply List.filter_congr
    intro entry _
    exact Bool.and_comm _ _
  rw [datedNames, pruneOldLogs, entries_foldl_delete, swapped, keepGreatest]
  -- The two tests decide membership by different instances.
  apply List.filter_congr
  intro name _
  exact decide_eq_decide.mpr Iff.rfl

theorem get?_pruneOldLogs_le {config : DailyConfig} {directory : Directory} {name : Text}
    {content : List UInt8} (found : (pruneOldLogs config directory).get? name = some content) :
    directory.get? name = some content := by
  rw [OrderedMap.get?_eq_some_iff, pruneOldLogs, entries_foldl_delete] at found
  exact OrderedMap.get?_eq_some_iff.mpr (List.mem_of_mem_filter found)

/-- A file is removed only if its name matches and is not one of the newest. -/
theorem get?_pruneOldLogs {config : DailyConfig} {directory : Directory} {name : Text}
    (kept : config.isDated name = true → name ∈ datedNames config (pruneOldLogs config directory) ∨
      directory.get? name = none) :
    (pruneOldLogs config directory).get? name = directory.get? name := by
  cases found : (pruneOldLogs config directory).get? name with
  | some content => exact (get?_pruneOldLogs_le found).symm
  | none =>
      cases present : directory.get? name with
      | none => rfl
      | some content =>
          have listed := OrderedMap.get?_eq_some_iff.mp present
          have absent := OrderedMap.get?_eq_none_iff.mp found content
          rw [pruneOldLogs, entries_foldl_delete, List.mem_filter, decide_eq_true_eq] at absent
          have dropped : name ∈ (lastFirst (datedNames config directory)).drop config.maxFiles :=
            not_not.mp fun safe => absent ⟨listed, safe⟩
          have dated := (mem_datedNames.mp
            ((perm_lastFirst _).mem_iff.mp (List.mem_of_mem_drop dropped))).1
          rcases kept dated with stays | missing
          · obtain ⟨_, other, held⟩ := mem_datedNames.mp stays
            rw [held] at found
            contradiction
          · rw [missing] at present
            contradiction

/-- Adding to a file adds its name at most. -/
theorem datedNames_appendFile {config : DailyConfig} (directory : Directory) {name : Text}
    (dated : config.isDated name = true) (chunk : List UInt8) :
    datedNames config (appendFile directory name chunk) = datedNames config directory ∨
      directory.get? name = none ∧
        datedNames config (appendFile directory name chunk) =
          datedNames config directory ++ [name] := by
  unfold datedNames appendFile
  by_cases known : name ∈ directory.entries.map Prod.fst
  · rw [OrderedMap.set, dif_pos known, OrderedMap.map_fst_replace]
    exact Or.inl rfl
  · have missing : directory.get? name = none := by
      rw [OrderedMap.get?_eq_none_iff]
      intro content member
      exact known (List.mem_map.mpr ⟨_, member, rfl⟩)
    rw [OrderedMap.entries_set_of_not_mem _ known, List.map_append, List.filter_append]
    simp [missing, dated]

/-! ## The archive -/

/-- What was added to files, in order: the name of the file and the bytes. -/
abbrev Additions :=
  List (Text × List UInt8)

section Archive

variable {config : DailyConfig} {initial directory : Directory} {added : Additions}

/-- There was such a file at some time. -/
def Existed (initial : Directory) (added : Additions) (name : Text) : Prop :=
  (∃ content, initial.get? name = some content) ∨ ∃ chunk, (name, chunk) ∈ added

/-- What a file would hold if none was ever removed. -/
def archive (initial : Directory) (added : Additions) (name : Text) : List UInt8 :=
  (initial.get? name).getD [] ++ (added.filter fun entry => entry.1 = name).flatMap Prod.snd

/-- The directory is the archive without old files: other files are as they were,
each file is whole, and a file that is missing has enough newer ones. -/
structure Archived (config : DailyConfig) (initial : Directory) (added : Additions)
    (directory : Directory) : Prop where
  foreign : ∀ name, config.isDated name = false → directory.get? name = initial.get? name
  whole : ∀ name content, config.isDated name = true → directory.get? name = some content →
    Existed initial added name ∧ content = archive initial added name
  missing : ∀ name, config.isDated name = true → Existed initial added name →
    directory.get? name = none →
    config.maxFiles ≤ countGreater name (datedNames config directory)

theorem archived_initial (config : DailyConfig) (initial : Directory) :
    Archived config initial [] initial where
  foreign _ _ := rfl
  whole name content _ found := by
    refine ⟨Or.inl ⟨content, found⟩, ?_⟩
    simp [archive, found]
  missing name _ existed absent := by
    rcases existed with ⟨content, found⟩ | ⟨chunk, member⟩
    · rw [absent] at found
      contradiction
    · contradiction

/-- Pruning removes old files only. -/
theorem Archived.prune (archived : Archived config initial added directory) :
    Archived config initial added (pruneOldLogs config directory) where
  foreign name undated := by
    rw [get?_pruneOldLogs (fun dated => by rw [undated] at dated; contradiction)]
    exact archived.foreign name undated
  whole name content dated found :=
    archived.whole name content dated (get?_pruneOldLogs_le found)
  missing name dated existed absent := by
    rw [datedNames_pruneOldLogs]
    have nodup := nodup_datedNames config directory
    cases present : directory.get? name with
    | none => exact countGreater_keepGreatest nodup (archived.missing name dated existed present)
    | some content =>
        apply countGreater_of_not_mem_keepGreatest nodup
        · exact mem_datedNames.mpr ⟨dated, content, present⟩
        · rw [← datedNames_pruneOldLogs]
          intro listed
          obtain ⟨_, other, found⟩ := mem_datedNames.mp listed
          rw [absent] at found
          contradiction

theorem existed_append {name file : Text} {chunk : List UInt8} :
    Existed initial (added ++ [(file, chunk)]) name ↔ Existed initial added name ∨ name = file := by
  unfold Existed
  constructor
  · rintro (first | ⟨chunk, member⟩)
    · exact Or.inl (Or.inl first)
    · rcases List.mem_append.mp member with earlier | last
      · exact Or.inl (Or.inr ⟨chunk, earlier⟩)
      · exact Or.inr (congrArg Prod.fst (List.mem_singleton.mp last))
  · rintro ((first | ⟨chunk, earlier⟩) | rfl)
    · exact Or.inl first
    · exact Or.inr ⟨chunk, List.mem_append_left _ earlier⟩
    · exact Or.inr ⟨chunk, List.mem_append_right _ (List.mem_singleton_self _)⟩

theorem archive_append_self (file : Text) (chunk : List UInt8) :
    archive initial (added ++ [(file, chunk)]) file = archive initial added file ++ chunk := by
  simp [archive]

theorem archive_append_of_ne {name file : Text} (different : name ≠ file) (chunk : List UInt8) :
    archive initial (added ++ [(file, chunk)]) name = archive initial added name := by
  simp [archive, Ne.symm different]

theorem archive_of_not_existed {name : Text} (new : ¬Existed initial added name) :
    archive initial added name = [] := by
  have absent : initial.get? name = none := by
    cases found : initial.get? name with
    | none => rfl
    | some content => exact absurd (Or.inl ⟨content, found⟩) new
  have none : (added.filter fun entry => entry.1 = name) = [] := by
    rw [List.filter_eq_nil_iff]
    rintro ⟨other, chunk⟩ member same
    rw [decide_eq_true_eq] at same
    subst same
    exact new (Or.inr ⟨chunk, member⟩)
  simp [archive, absent, none]

/-- Adding to a file that is there, or that never was. -/
theorem Archived.append (archived : Archived config initial added directory) {file : Text}
    (dated : config.isDated file = true)
    (fresh : directory.get? file = none → ¬Existed initial added file) (chunk : List UInt8) :
    Archived config initial (added ++ [(file, chunk)]) (appendFile directory file chunk) where
  foreign name undated := by
    have different : name ≠ file := by
      rintro rfl
      rw [undated] at dated
      contradiction
    rw [appendFile, OrderedMap.get?_set_of_ne different]
    exact archived.foreign name undated
  whole name content isDated found := by
    rw [appendFile] at found
    by_cases same : name = file
    · subst same
      rw [OrderedMap.get?_set_self, Option.some.injEq] at found
      refine ⟨existed_append.mpr (Or.inr rfl), ?_⟩
      rw [archive_append_self, ← found]
      cases present : directory.get? name with
      | none => rw [archive_of_not_existed (fresh present), Option.getD_none]
      | some old => rw [← (archived.whole name old isDated present).2, Option.getD_some]
    · rw [OrderedMap.get?_set_of_ne same] at found
      have whole := archived.whole name content isDated found
      exact ⟨existed_append.mpr (Or.inl whole.1), by rw [archive_append_of_ne same]; exact whole.2⟩
  missing name isDated existed absent := by
    have different : name ≠ file := by
      rintro rfl
      rw [appendFile, OrderedMap.get?_set_self] at absent
      contradiction
    rw [appendFile, OrderedMap.get?_set_of_ne different] at absent
    have before := archived.missing name isDated
      ((existed_append.mp existed).resolve_right different) absent
    rcases datedNames_appendFile directory dated chunk with same | ⟨-, grown⟩
    · rw [same]
      exact before
    · rw [grown, countGreater_append]
      exact before.trans (Nat.le_add_right _ _)

end Archive

/-! ## The run of a logger -/

namespace DailyLogger

section Run

variable {config : DailyConfig} {initial : Directory} {limit now later : Nat} {logger : DailyLogger}
  {added : Additions}

/-- The directory is the archive without old files, the file of the day is the
newest one, and there are few others. -/
structure Invariant (config : DailyConfig) (initial : Directory) (limit now : Nat)
    (logger : DailyLogger) (added : Additions) : Prop where
  isConfig : logger.config = config
  archived : Archived config initial added logger.directory
  day : ∃ day ≤ dayOf now, day ≤ lastDay ∧ logger.currentDate = (civil day).text
  newest : ∀ name, config.isDated name = true → Existed initial added name → name ≤ logger.file
  fresh : logger.directory.get? logger.file = none → ¬Existed initial added logger.file
  inOrder : (added.map Prod.fst).Pairwise (· ≤ ·)
  dated : ∀ entry ∈ added, config.isDated entry.1 = true
  few : ((datedNames config logger.directory).filter fun name => decide (name ≠ logger.file)).length
    ≤ limit

/-- The invariant looks at the configuration, the day and the directory. -/
theorem Invariant.of_same {other : DailyLogger}
    (invariant : Invariant config initial limit now logger added) (le : now ≤ later)
    (isConfig : other.config = logger.config) (currentDate : other.currentDate = logger.currentDate)
    (directory : other.directory = logger.directory) :
    Invariant config initial limit later other added := by
  have file : other.file = logger.file := by rw [DailyLogger.file, DailyLogger.file, isConfig,
    currentDate]
  obtain ⟨day, past, bounded, isDay⟩ := invariant.day
  exact {
    isConfig := isConfig.trans invariant.isConfig
    archived := directory ▸ invariant.archived
    day := ⟨day, past.trans (Nat.div_le_div_right le), bounded, currentDate.trans isDay⟩
    newest := file ▸ invariant.newest
    fresh := by rw [file, directory]; exact invariant.fresh
    inOrder := invariant.inOrder
    dated := invariant.dated
    few := by rw [file, directory]; exact invariant.few }

theorem Invariant.isDated_file (invariant : Invariant config initial limit now logger added) :
    config.isDated logger.file = true := by
  obtain ⟨day, -, bounded, isDay⟩ := invariant.day
  rw [file, invariant.isConfig, isDay]
  exact config.isDated_datedFilePath bounded

/-- Another day is a later one, and its file is new. -/
theorem Invariant.switchTo (invariant : Invariant config initial limit now logger added)
    (le : now ≤ later) (bounded : dayOf later ≤ lastDay) (empty : logger.buffer = [])
    (another : todayUTC later ≠ logger.currentDate) (enough : config.maxFiles ≤ limit) :
    Invariant config initial limit later (logger.switchTo (todayUTC later)) added := by
  have switched : logger.switchTo (todayUTC later) = { logger with
      currentDate := todayUTC later
      directory := pruneOldLogs logger.config logger.directory } := by
    have noBuffer : logger.buffer.isEmpty = true := by
      rw [empty]
      rfl
    rw [DailyLogger.switchTo, if_pos noBuffer]
  obtain ⟨day, past, -, isDay⟩ := invariant.day
  have after : day < dayOf later := by
    have reached : day ≤ dayOf later := past.trans (Nat.div_le_div_right le)
    apply Nat.lt_of_le_of_ne reached
    rintro rfl
    exact another isDay.symm
  have isConfig := invariant.isConfig
  have file : (logger.switchTo (todayUTC later)).file =
      config.datedFilePath (civil (dayOf later)).text := by
    rw [switched, DailyLogger.file, isConfig]
    rfl
  have newer : logger.file < (logger.switchTo (todayUTC later)).file := by
    rw [file, DailyLogger.file, isConfig, isDay]
    exact config.datedFilePath_lt after bounded
  have directory : (logger.switchTo (todayUTC later)).directory =
      pruneOldLogs config logger.directory := by
    rw [switched, isConfig]
  exact {
    isConfig := by rw [switched]; exact isConfig
    archived := by rw [directory]; exact invariant.archived.prune
    day := ⟨dayOf later, Nat.le_refl _, bounded, by rw [switched]; rfl⟩
    newest := fun name dated existed => ((invariant.newest name dated existed).trans_lt newer).le
    fresh := fun _ existed => by
      have isDated := config.isDated_datedFilePath bounded
      rw [file] at existed newer
      exact absurd (invariant.newest _ isDated existed) (not_le.mpr newer)
    inOrder := invariant.inOrder
    dated := invariant.dated
    few := by
      rw [directory, datedNames_pruneOldLogs]
      exact (List.length_filter_le _ _).trans ((length_keepGreatest_le
        (nodup_datedNames config logger.directory) _).trans enough) }

theorem Invariant.rotateIfNeeded (invariant : Invariant config initial limit now logger added)
    (le : now ≤ later) (bounded : dayOf later ≤ lastDay) (empty : logger.buffer = [])
    (enough : config.maxFiles ≤ limit) :
    Invariant config initial limit later (logger.rotateIfNeeded later) added := by
  unfold DailyLogger.rotateIfNeeded
  split
  · exact invariant.of_same le rfl rfl rfl
  · have checked : Invariant config initial limit now { logger with lastRotateCheckAt := later }
        added := invariant.of_same (Nat.le_refl _) rfl rfl rfl
    dsimp only
    split
    · next another => exact checked.switchTo le bounded empty another enough
    · exact checked.of_same le rfl rfl rfl

theorem buffer_rotateIfNeeded (empty : logger.buffer = []) (later : Nat) :
    (logger.rotateIfNeeded later).buffer = [] := by
  unfold DailyLogger.rotateIfNeeded
  split
  · exact empty
  · dsimp only
    split
    · simp [DailyLogger.switchTo, empty]
    · exact empty

/-- The buffer goes to the end of the file of the day. -/
theorem Invariant.append (invariant : Invariant config initial limit now logger added)
    (chunk : List UInt8) :
    Invariant config initial limit now
      { logger with directory := appendFile logger.directory logger.file chunk }
      (added ++ [(logger.file, chunk)]) := by
  have isDated := invariant.isDated_file
  exact {
    isConfig := invariant.isConfig
    archived := invariant.archived.append isDated invariant.fresh chunk
    day := invariant.day
    newest := by
      intro name dated existed
      rcases existed_append.mp existed with before | same
      · exact invariant.newest name dated before
      · exact le_of_eq same
    fresh := by
      intro absent
      change (appendFile logger.directory logger.file chunk).get? logger.file = none at absent
      rw [appendFile, OrderedMap.get?_set_self] at absent
      contradiction
    inOrder := by
      rw [List.map_append, List.pairwise_append]
      refine ⟨invariant.inOrder, List.pairwise_singleton _ _, ?_⟩
      intro name member last isLast
      obtain ⟨⟨_, chunk⟩, earlier, rfl⟩ := List.mem_map.mp member
      rw [List.map_singleton, List.mem_singleton] at isLast
      rw [isLast]
      exact invariant.newest _ (invariant.dated _ earlier) (Or.inr ⟨chunk, earlier⟩)
    dated := by
      intro entry member
      rcases List.mem_append.mp member with earlier | last
      · exact invariant.dated entry earlier
      · rw [List.mem_singleton.mp last]
        exact isDated
    few := by
      change ((datedNames config (appendFile logger.directory logger.file chunk)).filter
        fun name => decide (name ≠ logger.file)).length ≤ limit
      rcases datedNames_appendFile logger.directory isDated chunk with same | ⟨-, grown⟩
      · rw [same]
        exact invariant.few
      · rw [grown, List.filter_append]
        simpa using invariant.few }

/-- What was buffered or logged since is in the files now, or in the buffer. -/
def Written (config : DailyConfig) (initial : Directory) (limit later : Nat)
    (before after : DailyLogger) (added : Additions) (line : Text) : Prop :=
  ∃ more : Additions, Invariant config initial limit later after (added ++ more) ∧
    more.flatMap Prod.snd ++ encodeUtf8 after.buffer.flatten =
      encodeUtf8 (before.buffer.flatten ++ line)

/-- A flush writes the whole buffer. -/
theorem Invariant.flush (invariant : Invariant config initial limit now logger added)
    (le : now ≤ later) (bounded : dayOf later ≤ lastDay) (enough : config.maxFiles ≤ limit) :
    Written config initial limit later logger (logger.flush later) added [] := by
  unfold DailyLogger.flush
  split
  · refine ⟨[], ?_, by simp⟩
    rw [List.append_nil]
    exact invariant.of_same le rfl rfl rfl
  · have cleared : Invariant config initial limit now
        { logger with buffer := [], bufferBytes := 0 } added :=
      invariant.of_same (Nat.le_refl _) rfl rfl rfl
    have rotated := cleared.rotateIfNeeded le bounded rfl enough
    refine ⟨_, rotated.append _, ?_⟩
    have empty : (DailyLogger.rotateIfNeeded { logger with buffer := [], bufferBytes := 0 }
        later).buffer = [] :=
      buffer_rotateIfNeeded rfl later
    simp [empty, encodeUtf8]

/-- One event. -/
theorem Invariant.react (invariant : Invariant config initial limit now logger added)
    (event : DailyEvent) (le : now ≤ event.now) (bounded : dayOf event.now ≤ lastDay)
    (enough : config.maxFiles ≤ limit) :
    Written config initial limit event.now logger (logger.react event) added event.line := by
  cases event with
  | write line time =>
      have buffered : Invariant config initial limit now { logger with
          buffer := logger.buffer ++ [line ++ ['\n']]
          bufferBytes := logger.bufferBytes + unitLength (line ++ ['\n']) } added :=
        invariant.of_same (Nat.le_refl _) rfl rfl rfl
      unfold DailyLogger.react DailyLogger.write
      dsimp only
      split
      · obtain ⟨more, after, stream⟩ := buffered.flush le bounded enough
        refine ⟨more, after, stream.trans ?_⟩
        simp [DailyEvent.line]
      · refine ⟨[], ?_, ?_⟩
        · rw [List.append_nil]
          exact buffered.of_same le rfl rfl rfl
        · simp [DailyEvent.line]
  | timer time =>
      unfold DailyLogger.react
      dsimp only
      split
      · exact invariant.flush le bounded enough
      · refine ⟨[], ?_, by simp [DailyEvent.line]⟩
        rw [List.append_nil]
        exact invariant.of_same le rfl rfl rfl
  | shutdown time =>
      have stopped : Invariant config initial limit now { logger with flushTimer := false } added :=
        invariant.of_same (Nat.le_refl _) rfl rfl rfl
      exact stopped.flush le bounded enough

/-- A run of events whose clock does not go back. -/
theorem Invariant.run (invariant : Invariant config initial limit now logger added)
    (enough : config.maxFiles ≤ limit) (events : List DailyEvent)
    (inOrder : (now :: events.map DailyEvent.now).Pairwise (· ≤ ·))
    (bounded : ∀ event ∈ events, dayOf event.now ≤ lastDay) :
    ∃ time, Written config initial limit time logger (events.foldl DailyLogger.react logger) added
      (events.flatMap DailyEvent.line) := by
  induction events generalizing logger now added with
  | nil =>
      refine ⟨now, [], ?_, by simp⟩
      rw [List.append_nil]
      exact invariant
  | cons event rest ih =>
      rw [List.map_cons, List.pairwise_cons] at inOrder
      obtain ⟨more, after, stream⟩ := invariant.react event
        (inOrder.1 _ List.mem_cons_self) (bounded event List.mem_cons_self) enough
      obtain ⟨time, others, last, following⟩ := ih after inOrder.2
        (fun later member => bounded later (List.mem_cons_of_mem _ member))
      refine ⟨time, more ++ others, ?_, ?_⟩
      · rw [← List.append_assoc]
        exact last
      · rw [List.foldl_cons, List.flatMap_append, List.append_assoc, following, encodeUtf8_append,
          ← List.append_assoc, stream, ← encodeUtf8_append, List.flatMap_cons, List.append_assoc]

end Run

/-- What a run leaves in the directory and in the buffer, by what was added to
files. -/
structure Retained (config : DailyConfig) (initial : Directory) (events : List DailyEvent)
    (after : DailyLogger) (added : Additions) : Prop where
  /-- Every line is in a file or in the buffer, in order. -/
  stream : added.flatMap Prod.snd ++ encodeUtf8 after.buffer.flatten =
    encodeUtf8 (events.flatMap DailyEvent.line)
  /-- The files are those of days that do not go back. -/
  inOrder : (added.map Prod.fst).Pairwise (· ≤ ·)
  dated : ∀ entry ∈ added, config.isDated entry.1 = true
  /-- Old files are missing, and nothing else is. -/
  archived : Archived config initial added after.directory
  few : (datedNames config after.directory).length ≤
    max (datedNames config initial).length config.maxFiles + 1

/-- The names but for one. -/
theorem length_le_of_filter {names : List Text} (nodup : names.Nodup) (file : Text) :
    names.length ≤ (names.filter fun name => decide (name ≠ file)).length + 1 := by
  have one := List.nodup_iff_count_le_one.mp nodup file
  have split := List.length_eq_countP_add_countP (fun name => decide (name ≠ file)) (l := names)
  have same : (names.countP fun name => decide ¬decide (name ≠ file) = true) = names.count file := by
    apply List.countP_congr
    intro name _
    simp
  rw [same] at split
  rw [← List.countP_eq_length_filter]
  omega

/-- Whatever is logged and whenever the buffer is flushed: if the clock does not go
back and no file is of a day to come at the start, then the lines are in the files
in order, the files are those of their days, and only old files are missing, for
which there are enough newer ones. -/
theorem retained_of_run (config : DailyConfig) (initial : Directory) (startedAt : Nat)
    (events : List DailyEvent)
    (inOrder : (startedAt :: events.map DailyEvent.now).Pairwise (· ≤ ·))
    (bounded : ∀ time ∈ startedAt :: events.map DailyEvent.now, dayOf time ≤ lastDay)
    (past : ∀ name ∈ datedNames config initial,
      name ≤ config.datedFilePath (todayUTC startedAt)) :
    ∃ added, Retained config initial events
      (events.foldl react (new config initial startedAt)) added := by
  have startDay := bounded startedAt List.mem_cons_self
  have start : Invariant config initial
      (max (datedNames config initial).length config.maxFiles) startedAt
      (new config initial startedAt) [] := {
    isConfig := rfl
    archived := archived_initial config initial
    day := ⟨dayOf startedAt, Nat.le_refl _, startDay, rfl⟩
    newest := by
      intro name dated existed
      rcases existed with found | ⟨chunk, member⟩
      · exact past name (mem_datedNames.mpr ⟨dated, found⟩)
      · contradiction
    fresh := by
      rintro absent (⟨content, found⟩ | ⟨chunk, member⟩)
      · cases absent.symm.trans found
      · contradiction
    inOrder := List.Pairwise.nil
    dated := by
      intro entry member
      contradiction
    few := (List.length_filter_le _ _).trans (Nat.le_max_left _ _) }
  obtain ⟨time, added, last, stream⟩ := start.run (Nat.le_max_right _ _) events inOrder
    fun event member => bounded _ (List.mem_cons_of_mem _ (List.mem_map_of_mem member))
  rw [List.nil_append] at last
  refine ⟨added, ?_, last.inOrder, last.dated, last.archived, ?_⟩
  · rw [stream]
    rfl
  · exact (length_le_of_filter (nodup_datedNames _ _) _).trans (Nat.succ_le_succ last.few)

/-! ## Three days -/

/-- A logger that keeps one file beside that of the day. -/
def dailyExample : DailyConfig :=
  ⟨"pool".toList, "log".toList, 1, by decide⟩

/-- One line on each of three days, and the end of the last one. -/
def dailyEvents : List DailyEvent :=
  [.write "first".toList 90000000, .timer 90000500, .write "second".toList 180000000,
    .timer 180000500, .write "third".toList 270000000, .shutdown 270000500]

theorem retained_dailyEvents :
    ∃ added, Retained dailyExample OrderedMap.empty dailyEvents
      (dailyEvents.foldl react (new dailyExample OrderedMap.empty 90000000)) added := by
  apply retained_of_run
  · decide
  · decide
  · intro name member
    contradiction

end DailyLogger

end ZcashSoloPool.Logging
