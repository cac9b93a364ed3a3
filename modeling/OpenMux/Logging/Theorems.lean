import OpenMux.Lib.Run
import OpenMux.Logging.Lemmas.Lines

/-!
# Logs of ports
-/

namespace OpenMux.Logging

open Py FilePath Transition

/-! ## Names and files -/

/-- The logs of two names are their own below every base directory exactly if their paths stay in the directory of the logs and lead to
different places there. So are those of names without a slash. -/
theorem private_iff (n m : Text) :
    ((∀ base, (∀ c ∈ base, IsName c) → Private base n m) ↔ Stays n ∧ Stays m ∧ (n ≠ m → place n ≠ place m)) ∧
      ('/' ∉ n → '/' ∉ m → ∀ base, Private base n m) := by
  have hprivate : ∀ base, Stays n → Stays m → (n ≠ m → place n ≠ place m) → Private base n m := by
    intro base hn hm hne
    refine ⟨hn.inside base, hm.inside base, fun h heq => ?_⟩
    obtain ⟨p, -, hp⟩ := hn
    obtain ⟨q, -, hq⟩ := hm
    rw [defaultPath_of_place hp, defaultPath_of_place hq, List.append_cancel_left_eq] at heq
    exact hne h (by rw [hp, hq, heq])
  constructor
  · constructor
    · intro h
      obtain ⟨d, hname, hd⟩ :=
        exists_name (ports :: (components (n ++ ".log".toList) ++ components (m ++ ".log".toList)))
      rw [List.mem_cons, List.mem_append, not_or, not_or] at hd
      obtain ⟨hports, hdn, hdm⟩ := hd
      have hp := h [d] (by simpa using hname)
      have hn := stays_of_inside hp.left hdn hports
      have hm := stays_of_inside hp.right hdm hports
      refine ⟨hn, hm, fun hne heq => hp.apart hne ?_⟩
      obtain ⟨p, -, hplace⟩ := hn
      rw [defaultPath_of_place hplace, defaultPath_of_place (heq ▸ hplace)]
    · rintro ⟨hn, hm, hne⟩ base -
      exact hprivate base hn hm hne
  · intro hn hm base
    have hstays : ∀ t : Text, '/' ∉ t → Stays t := fun t ht => ⟨[t ++ ".log".toList], by simp, place_of_notMem ht⟩
    refine hprivate base (hstays n hn) (hstays m hm) fun hne heq => ?_
    rw [place_of_notMem hn, place_of_notMem hm] at heq
    exact hne (by simpa using heq)

def logDirectory : Directory := ["var".toList, "log".toList, "openmux".toList]

/-- A request reads a file elsewhere, and a peer's port writes to the log of another. -/
theorem private_iff_fails :
    requestedPath logDirectory "../../dpkg".toList = some ["var".toList, "log".toList, "dpkg.log".toList] ∧
      defaultPath logDirectory (advertisedName (some "./core-switch".toList) none) =
        defaultPath logDirectory "core-switch".toList ∧
      "./core-switch".toList ≠ "core-switch".toList := by
  decide

/-! ## Lines -/

theorem inv_start : Inv {} where
  buffers path b hb := by cases hb
  unfinished k b hb := by cases hb
  count k := le_rfl

/-- Where the lines are logged, their texts are those of the lines of the stream, and no byte in them is one of another stream. -/
theorem texts_of_logged {t : Recording} (h : t.Logged) (k : LogStream) :
    (t.logger.linesOf k).map (fun bytes => lineText (bytes.map Prod.fst)) = (t.log.lines k).map lineText ∧
      ∀ bytes ∈ t.logger.linesOf k, ∀ b ∈ bytes, b.2 = k := by
  have hlines := logged_iff.mp h k
  rw [hlines]
  constructor
  · simp [tag, Function.comp_def]
  · intro bytes hbytes b hb
    obtain ⟨line, -, rfl⟩ := List.mem_map.mp hbytes
    obtain ⟨x, -, rfl⟩ := List.mem_map.mp hb
    rfl

/-- In any run of the logger the data lines of every port and direction are the lines of its bytes, and only of its own, the last of a
file included, exactly if every chunk with a line end meets its own unfinished line in the buffer of its file, and no line is unfinished
when its file is swapped or closed. -/
theorem lines_logged (layout : Layout) {t : Recording} {run : List LogAct} (h : exec (Recording.step layout) {} run = some t) :
    t.Logged ↔ Along (Recording.step layout) (Recording.Clean layout) {} run := by
  have hstart : Recording.Logged {} := fun k => rfl
  have hrun := exec_iff_along (fun s a u hs hu => (logged_step hs hu : Inv u ∧ (u.Logged ↔ s.Logged ∧ s.Clean layout a))) inv_start h
  rw [hrun]
  exact and_iff_right hstart

/-- Paths below a base directory that is a text. -/
def posix : Layout where
  defaultPath base port := base.getD "logs".toList ++ "/ports/".toList ++ port ++ ".log".toList
  under base path := base.any fun base => (base ++ "/ports/".toList).isPrefixOf path

def console : LogStream := ⟨"core-switch".toList, .inbound⟩

def typed : LogStream := ⟨"core-switch".toList, .outbound⟩

/-- The settings of a port that logs both directions. -/
def both : PortObj := { logDirections := ["in".toList, "out".toList] }

/-- One whole line, and the end. -/
def oneLine : List LogAct := [.record ⟨console, [], [0x6F, 0x6B, 0x0A], none⟩, .write, .close]

theorem oneLine_clean : Along (Recording.step posix) (Recording.Clean posix) {} oneLine := by
  refine ⟨trivial, fun ev hev _ => ?_, fun k => ⟨?_, rfl⟩, trivial⟩
  · cases hev
    exact .inr rfl
  · show (if k = console then _ else _) = []
    split <;> rfl

theorem lines_logged_oneLine : ∃ t, exec (Recording.step posix) {} oneLine = some t ∧ t.Logged := by
  obtain ⟨t, ht⟩ := Option.isSome_iff_exists.mp (show (exec (Recording.step posix) {} oneLine).isSome = true from rfl)
  exact ⟨t, ht, (lines_logged posix ht).mpr oneLine_clean⟩

/-- What is typed between a prompt and its line end is logged as part of the line of the console, and a last line is lost. -/
theorem lines_logged_fails : ∃ t, exec (Recording.step posix) {} [.record ⟨console, [], [0x24, 0x20], some both⟩,
      .record ⟨typed, [], [0x6C, 0x73, 0x0A], some both⟩, .write, .write, .record ⟨console, [], [0x24], some both⟩, .write, .close] = some t ∧
    (t.logger.linesOf typed).map (fun bytes => lineText (bytes.map Prod.fst)) = ["$ ls".toList] ∧
    (t.log.lines typed).map lineText = ["ls".toList] ∧ t.logger.linesOf console = [] ∧
    (t.log.lines console).map lineText = ["$ $".toList] :=
  ⟨_, rfl, by decide, by decide, by decide, by decide⟩

end OpenMux.Logging
