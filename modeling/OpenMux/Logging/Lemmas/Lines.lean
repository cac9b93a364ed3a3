import OpenMux.Lib.PyText
import OpenMux.Logging.Lines

/-!
# Lines and buffers
-/

namespace OpenMux.Logging

open Py

variable {layout : Layout} {s t : Recording} {k : LogStream} {ev : LogEvent} {a : LogAct}

/-- The data lines that are labelled with a stream. -/
def DataLogger.linesOf (s : DataLogger) (k : LogStream) : List (List Tagged) := (s.written.filter (·.stream = k)).map (·.bytes)

def tag (k : LogStream) (bytes : List UInt8) : List Tagged := bytes.map (·, k)

/-! ## The queue -/

/-- What is written, and what is in the buffers. -/
def DataLogger.disk (s : DataLogger) : List Line × Dict Text (List Tagged) := (s.written, s.lineBuffers)

theorem disk_directionAllowed (s : DataLogger) (k : LogStream) (portObj : Option PortObj) :
    (s.directionAllowed k portObj).1.disk = s.disk := by
  unfold DataLogger.directionAllowed
  split
  · rfl
  · split <;> rfl

theorem disk_record (s : DataLogger) (ev : LogEvent) : (s.record ev).disk = s.disk := by
  have hdisk := disk_directionAllowed s ev.stream ev.portObj
  unfold DataLogger.record
  split
  · rename_i h
    rwa [h] at hdisk
  · rename_i h
    rw [h] at hdisk
    split <;> exact hdisk

/-! ## The log as it should be -/

namespace LineLog

variable {l : LineLog}

/-- No unfinished line has an end. -/
def Open (l : LineLog) : Prop := ∀ k, Lines.Open isLineFeed (l.unfinished k)

theorem Open.take (h : l.Open) (ev : LogEvent) : (l.take ev).Open := by
  intro k
  simp only [LineLog.take]
  split
  · exact Lines.open_rest _
  · exact h k

theorem Open.finish (h : l.Open) (streams : LogStream → Bool) : (l.finish streams).Open := by
  intro k
  simp only [LineLog.finish]
  split
  · exact fun b hb => by cases hb
  · exact h k

end LineLog

theorem queued_cons (ev : LogEvent) (queue : List LogEvent) (k : LogStream) :
    queued (ev :: queue) k = (if ev.isLine ∧ ev.stream = k then ev.data else []) ++ queued queue k := by
  unfold queued
  by_cases h : ev.isLine = true ∧ ev.stream = k
  · rw [List.filter_cons_of_pos (by simpa using h), List.flatMap_cons, if_pos h]
  · rw [List.filter_cons_of_neg (by simpa using h), if_neg h, List.nil_append]

/-- What waits in the queue is cut as one chunk. -/
theorem takeAll_eq {l : LineLog} (hl : l.Open) (queue : List LogEvent) (k : LogStream) :
    (Recording.takeAll l queue).lines k = l.lines k ++ (Lines.cut isLineFeed (l.unfinished k ++ queued queue k)).1 ∧
      (Recording.takeAll l queue).unfinished k = (Lines.cut isLineFeed (l.unfinished k ++ queued queue k)).2 := by
  induction queue generalizing l with
  | nil =>
      have hopen := Lines.cut_of_open (hl k)
      simp [Recording.takeAll, queued, hopen]
  | cons ev queue ih =>
      rw [queued_cons]
      by_cases hline : ev.isLine = true
      · have htake : Recording.takeAll l (ev :: queue) = Recording.takeAll (l.take ev) queue := by
          simp [Recording.takeAll, hline]
        rw [htake, (ih (hl.take ev)).1, (ih (hl.take ev)).2]
        by_cases hk : ev.stream = k
        · subst hk
          rw [if_pos ⟨hline, rfl⟩, ← List.append_assoc, Lines.cut_append (l.unfinished ev.stream ++ ev.data)]
          simp [LineLog.take]
        · simp [LineLog.take, hk, Ne.symm hk]
      · have htake : Recording.takeAll l (ev :: queue) = Recording.takeAll l queue := by
          simp [Recording.takeAll, hline]
        rw [htake, if_neg (fun h => hline h.1), List.nil_append]
        exact ih hl

/-! ## Steps -/

structure Inv (s : Recording) : Prop where
  buffers : ∀ path, Lines.Open (fun b : Tagged => isLineFeed b.1) (s.logger.buffer path)
  unfinished : s.log.Open
  count : ∀ k, (s.logger.linesOf k).length ≤ (s.log.lines k).length

/-- The lines that a step writes, and those that it should write. -/
structure Adds (s t : Recording) (clean : Prop) where
  code : LogStream → List (List Tagged)
  spec : LogStream → List (List UInt8)
  written : ∀ k, t.logger.linesOf k = s.logger.linesOf k ++ code k
  lines : ∀ k, t.log.lines k = s.log.lines k ++ spec k
  length_le : ∀ k, (code k).length ≤ (spec k).length
  same : (∀ k, code k = (spec k).map (tag k)) ↔ clean

theorem logged_iff : s.Logged ↔ ∀ k, s.logger.linesOf k = (s.log.lines k).map (tag k) := Iff.rfl

/-- The lines stay the right ones exactly if the right ones are added. -/
theorem logged_of_adds {clean : Prop} (hs : Inv s) (h : Adds s t clean) : t.Logged ↔ s.Logged ∧ clean := by
  rw [logged_iff, logged_iff, ← h.same, ← forall_and]
  apply forall_congr'
  intro k
  rw [h.written, h.lines, List.map_append]
  constructor
  · intro heq
    have hlen := congrArg List.length heq
    have hcount := hs.count k
    have hle := h.length_le k
    simp only [List.length_append, List.length_map] at hlen
    exact List.append_inj heq (by rw [List.length_map]; omega)
  · rintro ⟨hbefore, hadded⟩
    rw [hbefore, hadded]

theorem count_of_adds {clean : Prop} (hs : Inv s) (h : Adds s t clean) (k : LogStream) :
    (t.logger.linesOf k).length ≤ (t.log.lines k).length := by
  have hcount := hs.count k
  have hle := h.length_le k
  rw [h.written, h.lines, List.length_append, List.length_append]
  omega

/-- A step that leaves the files and the log as they are. -/
def Adds.idle (hwritten : t.logger.written = s.logger.written) (hlog : t.log = s.log) : Adds s t True where
  code _ := []
  spec _ := []
  written k := by rw [DataLogger.linesOf, DataLogger.linesOf, hwritten, List.append_nil]
  lines k := by rw [hlog, List.append_nil]
  length_le _ := le_rfl
  same := by simp

theorem inv_idle (hs : Inv s) (hdisk : t.logger.disk = s.logger.disk) (hlog : t.log = s.log) : Inv t where
  buffers path := by
    have hbuffers : t.logger.lineBuffers = s.logger.lineBuffers := congrArg Prod.snd hdisk
    rw [DataLogger.buffer, hbuffers]
    exact hs.buffers path
  unfinished := hlog ▸ hs.unfinished
  count := count_of_adds hs (.idle (congrArg Prod.fst hdisk) hlog)

theorem buffer_set (s : DataLogger) (path p : Text) (b : List Tagged) :
    DataLogger.buffer { s with lineBuffers := s.lineBuffers.set path b } p = if p = path then b else s.buffer p := by
  rw [DataLogger.buffer, Dict.get?_set]
  split <;> rfl

theorem linesOf_append (s : DataLogger) (new : List Line) (k : LogStream) :
    DataLogger.linesOf { s with written := s.written ++ new } k =
      s.linesOf k ++ (new.filter (·.stream = k)).map (·.bytes) := by
  simp [DataLogger.linesOf]

/-- The lines of one event are labelled with its stream. -/
theorem filter_lines (bytes : List (List Tagged)) (path clientId : Text) (k' k : LogStream) :
    ((bytes.map fun b => (⟨path, k', clientId, b⟩ : Line)).filter (·.stream = k)).map (·.bytes) =
      if k = k' then bytes else [] := by
  by_cases hk : k = k'
  · subst hk
    rw [if_pos rfl, List.filter_eq_self.mpr (by simp), List.map_map]
    exact List.map_id _
  · rw [if_neg hk, List.filter_eq_nil_iff.mpr (by simpa using fun _ _ => Ne.symm hk)]
    rfl

/-- Tagged bytes are cut as the bytes are. -/
theorem cut_tag (k : LogStream) (bytes : List UInt8) :
    Lines.cut (fun b : Tagged => isLineFeed b.1) (tag k bytes) =
      ((Lines.cut isLineFeed bytes).1.map (tag k), tag k (Lines.cut isLineFeed bytes).2) :=
  Lines.cut_map bytes

theorem open_tag {k : LogStream} {bytes : List UInt8} :
    Lines.Open (fun b : Tagged => isLineFeed b.1) (tag k bytes) ↔ Lines.Open isLineFeed bytes := by
  simp [Lines.Open, tag]

/-- The lines of a chunk are as many as they should be, and the right ones exactly if none comes to its end, or the buffer of the file
holds the unfinished line of the stream. -/
theorem cutChunk_congr (hs : Inv s) (path : Text) (ev : LogEvent) :
    (s.logger.cutChunk path ev).1.length = (Lines.cut isLineFeed (s.log.unfinished ev.stream ++ ev.data)).1.length ∧
      ((s.logger.cutChunk path ev).1 = (Lines.cut isLineFeed (s.log.unfinished ev.stream ++ ev.data)).1.map (tag ev.stream) ↔
        Lines.Open isLineFeed ev.data ∨ s.logger.buffer path = tag ev.stream (s.log.unfinished ev.stream)) := by
  have htag := cut_tag ev.stream (s.log.unfinished ev.stream ++ ev.data)
  have hopen := (open_tag (k := ev.stream)).mpr (hs.unfinished ev.stream)
  have happend : tag ev.stream (s.log.unfinished ev.stream ++ ev.data) =
      tag ev.stream (s.log.unfinished ev.stream) ++ tag ev.stream ev.data := List.map_append
  obtain ⟨hlen, heq⟩ := Lines.cut_open_append_congr (tag ev.stream ev.data) (hs.buffers path) hopen
  rw [← happend, htag] at hlen heq
  rw [open_tag] at heq
  exact ⟨by rw [← List.length_map (tag ev.stream)]; exact hlen, heq⟩

/-- What a chunk adds. -/
def Adds.line (hs : Inv s) (path : Text) (hdir : ev.stream.dir ≠ .lifecycle) :
    Adds s ⟨s.logger.writeLineRecord path ev, s.log.take ev⟩
      (Lines.Open isLineFeed ev.data ∨ s.logger.buffer path = tag ev.stream (s.log.unfinished ev.stream)) where
  code k := if k = ev.stream then (s.logger.cutChunk path ev).1 else []
  spec k := if k = ev.stream then (Lines.cut isLineFeed (s.log.unfinished ev.stream ++ ev.data)).1 else []
  written k := by
    rw [DataLogger.writeLineRecord, if_neg hdir, ← filter_lines _ path ev.clientId]
    exact linesOf_append { s.logger with lineBuffers := _ } _ k
  lines k := by
    simp only [LineLog.take]
    split
    · rename_i hk
      rw [hk]
    · rw [List.append_nil]
  length_le k := by
    split
    · exact (cutChunk_congr hs path ev).1.le
    · exact le_rfl
  same := by
    rw [← (cutChunk_congr hs path ev).2]
    constructor
    · intro h
      simpa using h ev.stream
    · intro h k
      split
      · rename_i hk
        rw [hk]
        exact h
      · rfl

theorem inv_line (hs : Inv s) (path : Text) (hdir : ev.stream.dir ≠ .lifecycle) :
    Inv ⟨s.logger.writeLineRecord path ev, s.log.take ev⟩ where
  buffers p := by
    rw [DataLogger.writeLineRecord, if_neg hdir]
    have hbuffer : DataLogger.buffer { s.logger with
        lineBuffers := s.logger.lineBuffers.set path (s.logger.cutChunk path ev).2
        written := s.logger.written ++ (s.logger.cutChunk path ev).1.map fun bytes => ⟨path, ev.stream, ev.clientId, bytes⟩ } p =
        if p = path then (s.logger.cutChunk path ev).2 else s.logger.buffer p := buffer_set s.logger path p _
    rw [hbuffer]
    split
    · exact Lines.open_rest _
    · exact hs.buffers p
  unfinished := hs.unfinished.take ev
  count := count_of_adds hs (.line hs path hdir)

/-- What finished lines add to the log alone. -/
def Adds.finish (streams : LogStream → Bool) (hwritten : t.logger.written = s.logger.written) (hlog : t.log = s.log.finish streams) :
    Adds s t (∀ k, streams k = true → s.log.unfinished k = []) where
  code _ := []
  spec k := if streams k ∧ s.log.unfinished k ≠ [] then [s.log.unfinished k] else []
  written k := by rw [DataLogger.linesOf, DataLogger.linesOf, hwritten, List.append_nil]
  lines k := by
    rw [hlog, LineLog.finish]
    simp only
    split
    · rfl
    · rw [List.append_nil]
  length_le k := Nat.zero_le _
  same := by
    apply forall_congr'
    intro k
    by_cases h : streams k = true ∧ s.log.unfinished k ≠ []
    · rw [if_pos h]
      exact iff_of_false (by simp) fun hempty => h.2 (hempty h.1)
    · rw [if_neg h]
      exact iff_of_true rfl fun hk => by simpa [hk] using h

/-- What is left is added when the logger is closed. -/
def Adds.close (hs : Inv s) : Adds s ⟨s.logger.close, (Recording.takeAll s.log s.logger.queue).finish fun _ => true⟩
    (∀ k, s.log.unfinished k = [] ∧ queued s.logger.queue k = []) where
  code _ := []
  spec k := (Lines.cut isLineFeed (s.log.unfinished k ++ queued s.logger.queue k)).1 ++
    if (Lines.cut isLineFeed (s.log.unfinished k ++ queued s.logger.queue k)).2 ≠ [] then
      [(Lines.cut isLineFeed (s.log.unfinished k ++ queued s.logger.queue k)).2] else []
  written k := by rw [List.append_nil]; rfl
  lines k := by
    simp only [LineLog.finish, (takeAll_eq hs.unfinished s.logger.queue k).1, (takeAll_eq hs.unfinished s.logger.queue k).2]
    split
    · rename_i h
      rw [if_pos h.2, List.append_assoc]
    · rename_i h
      rw [if_neg (by simpa using h), List.append_nil]
  length_le k := Nat.zero_le _
  same := by
    apply forall_congr'
    intro k
    have hnil : (Lines.cut isLineFeed (s.log.unfinished k ++ queued s.logger.queue k)).1 = [] ∧
        (Lines.cut isLineFeed (s.log.unfinished k ++ queued s.logger.queue k)).2 = [] ↔
          s.log.unfinished k ++ queued s.logger.queue k = [] := Lines.cut_eq_nil_iff
    refine Iff.trans ?_ (hnil.trans List.append_eq_nil_iff)
    constructor
    · intro h
      have hspec := List.map_eq_nil_iff.mp h.symm
      obtain ⟨hlines, hrest⟩ := List.append_eq_nil_iff.mp hspec
      refine ⟨hlines, ?_⟩
      by_contra hne
      rw [if_pos hne] at hrest
      cases hrest
    · rintro ⟨hlines, hrest⟩
      rw [hlines, hrest]
      rfl

theorem inv_lifecycle (hs : Inv s) (path : Text) :
    Inv ⟨{ s.logger with lineBuffers := s.logger.lineBuffers.set path (s.logger.buffer path) }, s.log⟩ where
  buffers p := by
    rw [buffer_set]
    split
    · exact hs.buffers path
    · exact hs.buffers p
  unfinished := hs.unfinished
  count := count_of_adds hs (.idle rfl rfl)

theorem inv_close (hs : Inv s) :
    Inv ⟨s.logger.close, (Recording.takeAll s.log s.logger.queue).finish fun _ => true⟩ where
  buffers path := fun b hb => by cases hb
  unfinished k := by
    have hnil : ((Recording.takeAll s.log s.logger.queue).finish fun _ => true).unfinished k = [] := by
      simp [LineLog.finish]
    rw [hnil]
    exact fun b hb => by cases hb
  count := count_of_adds hs (.close hs)

theorem inv_swap (hs : Inv s) (base : Option Text) (keep : Text → Bool) (streams : LogStream → Bool) :
    Inv ⟨{ s.logger with baseDir := base, lineBuffers := s.logger.lineBuffers.filterKeys keep }, s.log.finish streams⟩ where
  buffers path := by
    rw [DataLogger.buffer, Dict.get?_filterKeys]
    split
    · exact hs.buffers path
    · exact fun b hb => by cases hb
  unfinished := hs.unfinished.finish streams
  count := count_of_adds hs (.finish streams rfl rfl)

theorem logged_step (hs : Inv s) (h : s.step layout a = some t) : Inv t ∧ (t.Logged ↔ s.Logged ∧ s.Clean layout a) := by
  have hidle : ∀ {u : Recording}, u.logger.disk = s.logger.disk → u.log = s.log → Inv u ∧ (u.Logged ↔ s.Logged ∧ True) :=
    fun hdisk hlog => ⟨inv_idle hs hdisk hlog, logged_of_adds hs (.idle (congrArg Prod.fst hdisk) hlog)⟩
  cases a with
  | record ev =>
      cases h
      exact hidle (disk_record s.logger ev) rfl
  | write =>
      simp only [Recording.step] at h
      split at h
      · cases h
      · rename_i ev queue hqueue
        cases h
        have hclean : s.Clean layout .write ↔ (ev.isLine = true → Lines.Open isLineFeed ev.data ∨
            s.logger.buffer (ev.path layout s.logger.baseDir) = tag ev.stream (s.log.unfinished ev.stream)) := by
          simp [Recording.Clean, hqueue, tag]
        -- the event has left the queue, which changes neither the files nor the log
        have htaken : Inv ⟨{ s.logger with queue := queue }, s.log⟩ := inv_idle hs rfl rfl
        have hsame : Recording.Logged ⟨{ s.logger with queue := queue }, s.log⟩ ↔ s.Logged := Iff.rfl
        rw [hclean, ← hsame]
        by_cases hjson : ev.portObj.any (·.jsonl) = true
        · have hline : ev.isLine = false := by simp [LogEvent.isLine, hjson]
          rw [hline, if_neg (by simp), DataLogger.write, if_pos hjson]
          exact ⟨htaken, by simp⟩
        · rw [DataLogger.write, if_neg hjson]
          by_cases hdir : ev.stream.dir = .lifecycle
          · have hline : ev.isLine = false := by simp [LogEvent.isLine, hdir]
            rw [hline, if_neg (by simp), DataLogger.writeLineRecord, if_pos hdir]
            exact ⟨inv_lifecycle htaken _, (logged_of_adds htaken (.idle rfl rfl)).trans (and_congr Iff.rfl (by simp))⟩
          · have hline : ev.isLine = true := by simp [LogEvent.isLine, hdir, hjson]
            rw [hline, if_pos rfl]
            refine ⟨inv_line htaken _ hdir, ?_⟩
            rw [logged_of_adds htaken (.line htaken _ hdir)]
            exact and_congr Iff.rfl ⟨fun h _ => h, fun h => h rfl⟩
  | setBaseDir base =>
      cases h
      by_cases hbase : DataLogger.normalBase base = s.logger.baseDir
      · rw [DataLogger.setBaseDir, if_pos hbase, if_pos hbase]
        exact ⟨hs, (and_iff_left (.inl hbase)).symm⟩
      · rw [DataLogger.setBaseDir, if_neg hbase, if_neg hbase]
        refine ⟨inv_swap hs _ _ _, (logged_of_adds hs ?_).trans (and_congr Iff.rfl (or_iff_right hbase).symm)⟩
        exact .finish _ rfl rfl
  | close =>
      cases h
      exact ⟨inv_close hs, logged_of_adds hs (.close hs)⟩
  | setMirror src dst =>
      cases h
      exact hidle rfl rfl
  | clearMirror src dst =>
      cases h
      apply hidle
      · unfold DataLogger.clearMirror
        split <;> rfl
      · rfl
  | invalidatePortCache port =>
      cases h
      exact hidle rfl rfl

end OpenMux.Logging

/-!
## Places of logs
-/

namespace OpenMux.Logging

open Py FilePath

variable {base q : Directory} {n m d : Text}

/-- A place below the base directory is there below any base directory. -/
theorem defaultPath_of_place (h : place n = some q) : defaultPath base n = base ++ q := by
  unfold place at h
  split at h
  · cases h
  · rename_i hrelative
    rw [defaultPath, resolve, if_neg hrelative]
    exact foldl_enter_of_descend h

/-- A path without a place does not come back to a base directory whose name it does not know. -/
theorem notMem_defaultPath (h : place n = none) (hd : d ∉ components (n ++ ".log".toList)) (hports : d ≠ ports) :
    d ∉ defaultPath [d] n := by
  rw [defaultPath, resolve]
  unfold place at h
  split at h
  · rename_i habsolute
    rw [if_pos habsolute]
    exact notMem_foldl_enter (by simp) hd
  · rename_i hrelative
    rw [if_neg hrelative]
    exact notMem_of_descend_eq_none (by simpa using hports) hd h

theorem Stays.inside (h : Stays n) (base : Directory) : Inside base n := by
  obtain ⟨p, hp, hplace⟩ := h
  exact ⟨p, hp, defaultPath_of_place hplace⟩

/-- A name whose log is inside a directory that its path does not name stays inside. -/
theorem stays_of_inside (h : Inside [d] n) (hd : d ∉ components (n ++ ".log".toList)) (hports : d ≠ ports) : Stays n := by
  obtain ⟨p, hp, hpath⟩ := h
  cases hplace : place n with
  | none =>
      have hnot := notMem_defaultPath hplace hd hports
      rw [hpath] at hnot
      exact absurd List.mem_cons_self hnot
  | some q =>
      rw [defaultPath_of_place hplace, List.append_cancel_left_eq] at hpath
      exact ⟨p, hp, by rw [hplace, hpath]⟩

/-- A name without a slash is a file right in the directory. -/
theorem place_of_notMem (h : '/' ∉ n) : place n = some [ports, n ++ ".log".toList] := by
  have hslash : '/' ∉ n ++ ".log".toList := by simpa using h
  have hne : n ++ ".log".toList ≠ [] := by simp
  have hrelative : isAbsolute (n ++ ".log".toList) = false := by
    rw [isAbsolute, decide_eq_false_iff_not]
    exact fun hhead => hslash (List.mem_of_mem_head? hhead)
  have hlen : 4 ≤ (n ++ ".log".toList).length := by simp
  rw [place, hrelative, components, Py.split_self hslash]
  have hdot : ¬ (n ++ ".log".toList = [] ∨ n ++ ".log".toList = ['.']) := by
    rintro (heq | heq) <;> rw [heq] at hlen <;> simp at hlen
  have hparent : n ++ ".log".toList ≠ ['.', '.'] := by
    intro heq
    rw [heq] at hlen
    simp at hlen
  rw [if_neg (by simp), descend, if_neg hdot, if_neg hparent]
  rfl

end OpenMux.Logging
