import AnyServer.Library.CString
import AnyServer.Library.Files
import AnyServer.Library.Lts
import AnyServer.ClientRegistry

/-!
# The File Log

`Logger::__save_logfile__` writes to the open log file, or if there is none opens one. A file
that has grown past `m_filesize` is closed after the write, and the next call finds none
open. A call that finds no open file spends itself on opening one: its message is not
written. The name of a new file is made from the time in seconds and cut to 64 bytes, and
the file is opened with `"w+"`, so a name that comes again empties the file that has it.

Log files are kept under their names in order of creation (`Library/Files`). The conversion
of clock readings, `localtime`, is a parameter; `fwrite`, `fflush` and `stat` succeed.

## Main results

* `saveLogfile_length_le`: a call never adds more than its message.
* `log_complete_iff`: after any sequence of calls, the log files contain exactly the messages
  passed exactly if each call that found no file open had an empty message and made a name
  that no log file had.
-/

namespace AnyServer

open Lts

/-- The fields of a `struct tm` that name a log file. -/
structure Tm where
  tm_year : ℤ
  tm_mon : ℤ
  tm_mday : ℤ
  tm_hour : ℤ
  tm_min : ℤ
  tm_sec : ℤ
  deriving DecidableEq, Repr

/-- `printf` of an `int` under `%0<width>d`. -/
def zeroPadded (width : ℕ) (n : ℤ) : Bytes :=
  let digits := (Nat.toDigits 10 n.natAbs).map fun c => c.toNat.toUInt8
  if n < 0 then 45 :: (List.replicate (width - 1 - digits.length) 48 ++ digits)
  else List.replicate (width - digits.length) 48 ++ digits

/-- The static members that `__save_logfile__` reads and writes. `m_log_fp` says whether a
file is open, which is then the one named by `m_log_filename`; `files` are the log files
that there are. -/
structure Logger where
  m_filesize : ℕ
  m_log_rootpath : Bytes
  m_log_filename_prefix_ : Bytes
  m_log_filename : Bytes
  m_log_fp : Bool
  files : List (Bytes × Bytes)
  deriving DecidableEq, Repr

/-- One call of `__save_logfile__`: its arguments, the time it reads, and whether `fopen`
succeeds if it is called. -/
structure SaveCall where
  msg_prefix_ : Bytes
  msg : Bytes
  timer : ℤ
  fopen : Bool
  deriving DecidableEq, Repr

/-- `msg_prefix + msg`. -/
def SaveCall.message (call : SaveCall) : Bytes :=
  call.msg_prefix_ ++ call.msg

/-- `_suffix`: `"/%s_%04d%02d%02d_%02d%02d%02d.log"`, cut by `snprintf` to 63 characters. -/
def logSuffix (filename_prefix_ : Bytes) (t : Tm) : Bytes :=
  (ascii "/" ++ CString.read 0 filename_prefix_ ++ ascii "_" ++
    zeroPadded 4 (t.tm_year + 1900) ++ zeroPadded 2 (t.tm_mon + 1) ++ zeroPadded 2 t.tm_mday ++
    ascii "_" ++ zeroPadded 2 t.tm_hour ++ zeroPadded 2 t.tm_min ++ zeroPadded 2 t.tm_sec ++
    ascii ".log").take 63

/-- The `m_log_filename` that a call makes. -/
def Logger.newFilename (localtime : ℤ → Tm) (lg : Logger) (timer : ℤ) : Bytes :=
  lg.m_log_rootpath ++ logSuffix lg.m_log_filename_prefix_ (localtime timer)

/-- What `fopen` and `stat` take `m_log_filename.data()` for. -/
def Logger.path (lg : Logger) : Bytes :=
  CString.read 0 lg.m_log_filename

/-- `Logger::__save_logfile__`. -/
def saveLogfile (localtime : ℤ → Tm) (lg : Logger) (call : SaveCall) : Logger :=
  if lg.m_log_fp then
    let files := Files.append lg.files lg.path call.message
    let st_size := (Files.content files lg.path).length
    if lg.m_filesize < st_size then { lg with files, m_log_fp := false }
    else { lg with files }
  else
    let m_log_filename := lg.newFilename localtime call.timer
    if call.fopen then
      { lg with
        m_log_filename
        files := Files.create lg.files (CString.read 0 m_log_filename)
        m_log_fp := true }
    else { lg with m_log_filename }

/-- The log, call by call. -/
abbrev Logger.Step (localtime : ℤ → Tm) : Lts Logger SaveCall Empty :=
  ofFn fun lg call => some (saveLogfile localtime lg call, [])

/-- No log file was opened yet. -/
structure Logger.Initial (lg : Logger) : Prop where
  fp : lg.m_log_fp = false
  files : lg.files = []

/-- A call that finds no file open loses nothing: its message is empty, and the name that it
makes is new. -/
def Logger.Keeps (localtime : ℤ → Tm) (lg : Logger) (call : SaveCall) : Prop :=
  lg.m_log_fp = false → call.message = [] ∧
    (call.fopen = true →
      CString.read 0 (lg.newFilename localtime call.timer) ∉ Files.names lg.files)

/-! ### What a call does -/

section

variable {localtime : ℤ → Tm} {lg lg₀ : Logger} {call : SaveCall} {calls : List SaveCall}
  {os : List Empty}

/-- What holds of the log files at all times. -/
structure Logger.Sound (lg : Logger) : Prop where
  names_nodup : (Files.names lg.files).Nodup
  open_mem : lg.m_log_fp = true → lg.path ∈ Files.names lg.files
  closed_full : ∀ f ∈ lg.files, lg.m_log_fp = false ∨ f.1 ≠ lg.path → lg.m_filesize < f.2.length

/-- The entry of the open file. -/
theorem Logger.Sound.open_entry (h : lg.Sound) (hfp : lg.m_log_fp = true) :
    ∃ c, (lg.path, c) ∈ lg.files := by
  obtain ⟨f, hf, hname⟩ := List.mem_map.mp (h.open_mem hfp)
  exact ⟨f.2, by rw [← hname]; exact hf⟩

/-- What a call does: a write, which may close the file, or the making of a file. -/
theorem saveLogfile_cases (localtime : ℤ → Tm) (lg : Logger) (call : SaveCall) :
    (lg.m_log_fp = true ∧ ∃ b, saveLogfile localtime lg call =
        { lg with files := Files.append lg.files lg.path call.message, m_log_fp := b } ∧
      (b = false ↔ lg.m_filesize <
        (Files.content (Files.append lg.files lg.path call.message) lg.path).length)) ∨
    (lg.m_log_fp = false ∧ call.fopen = true ∧ saveLogfile localtime lg call =
        { lg with
          m_log_filename := lg.newFilename localtime call.timer
          files := Files.create lg.files (CString.read 0 (lg.newFilename localtime call.timer))
          m_log_fp := true }) ∨
    (lg.m_log_fp = false ∧ call.fopen = false ∧ saveLogfile localtime lg call =
        { lg with m_log_filename := lg.newFilename localtime call.timer }) := by
  cases hfp : lg.m_log_fp with
  | true =>
      refine .inl ⟨rfl, ?_⟩
      simp only [saveLogfile, hfp, if_true]
      split
      · next hlt => exact ⟨false, rfl, iff_of_true rfl hlt⟩
      · next hle => exact ⟨true, by rw [← hfp], iff_of_false Bool.noConfusion hle⟩
  | false =>
      cases hfo : call.fopen with
      | true => exact .inr (.inl ⟨rfl, rfl, by simp [saveLogfile, hfp, hfo]⟩)
      | false => exact .inr (.inr ⟨rfl, rfl, by simp [saveLogfile, hfp, hfo]⟩)

/-- Each message keeps the names distinct and the open file there. -/
theorem Logger.Sound.save (h : lg.Sound) : (saveLogfile localtime lg call).Sound := by
  obtain ⟨hnd, hopen, hfull⟩ := h
  rcases saveLogfile_cases localtime lg call with
    ⟨hfp, b, heq, hb⟩ | ⟨hfp, -, heq⟩ | ⟨hfp, -, heq⟩ <;> rw [heq]
  · have hnd' : (Files.names (Files.append lg.files lg.path call.message)).Nodup := by
      rwa [Files.append, Files.names_update]
    refine ⟨hnd', fun _ => ?_, fun f hf hor => ?_⟩
    · show lg.path ∈ Files.names (Files.append lg.files lg.path call.message)
      rw [Files.append, Files.names_update]
      exact hopen hfp
    · have hf : f ∈ Files.append lg.files lg.path call.message := hf
      by_cases hname : f.1 = lg.path
      · -- the file just written was closed because it is full
        have hclosed : b = false := hor.resolve_right fun hne => hne hname
        have hcontent := Files.content_eq hnd' hf
        rw [hname] at hcontent
        show lg.m_filesize < f.2.length
        rw [← hcontent]
        exact hb.mp hclosed
      · exact hfull f (Files.mem_of_mem_update hname hf) (.inr hname)
  · refine ⟨Files.nodup_create hnd, fun _ => Files.mem_create_self, fun f hf hor => ?_⟩
    have hname : f.1 ≠ CString.read 0 (lg.newFilename localtime call.timer) :=
      hor.resolve_left (by simp)
    exact hfull f (Files.mem_of_mem_create hname hf) (.inl hfp)
  · exact ⟨hnd, fun hopen' => by simp [hfp] at hopen',
      fun f hf _ => hfull f hf (.inl hfp)⟩

/-- A write adds the message to the total. -/
theorem length_write (h : lg.Sound) (hfp : lg.m_log_fp = true) :
    (Files.total (Files.append lg.files lg.path call.message)).length =
      (Files.total lg.files).length + call.message.length := by
  obtain ⟨c, hc⟩ := h.open_entry hfp
  have := Files.length_total_update (g := (· ++ call.message)) h.names_nodup hc
  simp only [List.length_append] at this
  rw [Files.append]
  omega

/-- Making a file under a name that is in use loses what that file contains. -/
theorem length_create_lt (h : lg.Sound) (hfp : lg.m_log_fp = false) {n : Bytes}
    (hn : n ∈ Files.names lg.files) :
    (Files.total (Files.create lg.files n)).length < (Files.total lg.files).length := by
  obtain ⟨f, hf, rfl⟩ := List.mem_map.mp hn
  have hfull := h.closed_full f hf (.inl hfp)
  have := Files.length_total_update (g := fun _ => []) h.names_nodup (c := f.2) hf
  rw [Files.create, if_pos hn]
  simp only [List.length_nil] at this
  omega

/-- A new file adds nothing to what the files hold. -/
theorem total_create_new {n : Bytes} (hn : n ∉ Files.names lg.files) :
    Files.total (Files.create lg.files n) = Files.total lg.files := by
  rw [Files.create, if_neg hn, Files.total_concat, List.append_nil]

/-- A call never adds more than its message. -/
theorem saveLogfile_length_le (h : lg.Sound) :
    (Files.total (saveLogfile localtime lg call).files).length ≤
      (Files.total lg.files).length + call.message.length := by
  rcases saveLogfile_cases localtime lg call with
    ⟨hfp, b, heq, -⟩ | ⟨hfp, -, heq⟩ | ⟨hfp, -, heq⟩ <;> rw [heq]
  · exact (length_write h hfp).le
  · by_cases hn : CString.read 0 (lg.newFilename localtime call.timer) ∈ Files.names lg.files
    · have := length_create_lt h hfp hn
      dsimp only
      omega
    · dsimp only
      rw [total_create_new hn]
      omega
  · dsimp only
    omega

/-- A call that does not keep its message adds less. -/
theorem saveLogfile_length_lt (h : lg.Sound) (hk : ¬ lg.Keeps localtime call) :
    (Files.total (saveLogfile localtime lg call).files).length <
      (Files.total lg.files).length + call.message.length := by
  have hfp : lg.m_log_fp = false := by
    by_contra hfp
    exact hk fun hf => absurd hf hfp
  rcases saveLogfile_cases localtime lg call with
    ⟨hfp', -⟩ | ⟨-, hfo, heq⟩ | ⟨-, hfo, heq⟩
  · simp [hfp] at hfp'
  · rw [heq]
    by_cases hn : CString.read 0 (lg.newFilename localtime call.timer) ∈ Files.names lg.files
    · have := length_create_lt h hfp hn
      dsimp only
      omega
    · have hmsg : call.message ≠ [] := fun hmsg => hk fun _ => ⟨hmsg, fun _ => hn⟩
      have hpos := List.length_pos_of_ne_nil hmsg
      dsimp only
      rw [total_create_new hn]
      omega
  · have hmsg : call.message ≠ [] := fun hmsg =>
      hk fun _ => ⟨hmsg, fun hf => by simp [hfo] at hf⟩
    have hpos := List.length_pos_of_ne_nil hmsg
    rw [heq]
    dsimp only
    omega

/-- The open file, if there is one, is the one made last. -/
def Logger.OpenLast (lg : Logger) : Prop :=
  lg.m_log_fp = true → ∃ gs c, lg.files = gs ++ [(lg.path, c)]

/-- A call that keeps its message adds it at the end. -/
theorem saveLogfile_keeps (h : lg.Sound) (hl : lg.OpenLast) (hk : lg.Keeps localtime call) :
    Files.total (saveLogfile localtime lg call).files =
        Files.total lg.files ++ call.message ∧
      (saveLogfile localtime lg call).OpenLast := by
  rcases saveLogfile_cases localtime lg call with
    ⟨hfp, b, heq, -⟩ | ⟨hfp, hfo, heq⟩ | ⟨hfp, hfo, heq⟩ <;> rw [heq]
  · obtain ⟨gs, c, hfiles⟩ := hl hfp
    have hnotin : lg.path ∉ Files.names gs := by
      have hnd := h.names_nodup
      rw [hfiles, Files.names, List.map_append] at hnd
      exact fun hmem => List.disjoint_of_nodup_append hnd hmem (by simp)
    have happ : Files.append lg.files lg.path call.message =
        gs ++ [(lg.path, c ++ call.message)] := by
      rw [hfiles, Files.append_last hnotin]
    refine ⟨?_, fun _ => ⟨gs, c ++ call.message, happ⟩⟩
    dsimp only
    rw [happ, hfiles, Files.total_concat, Files.total_concat, List.append_assoc]
  · obtain ⟨hmsg, hnew⟩ := hk hfp
    have hn := hnew hfo
    refine ⟨?_, fun _ => ⟨lg.files, [], by rw [Files.create, if_neg hn]; rfl⟩⟩
    dsimp only
    rw [total_create_new hn, hmsg, List.append_nil]
  · obtain ⟨hmsg, -⟩ := hk hfp
    refine ⟨by rw [hmsg, List.append_nil], fun hopen => ?_⟩
    simp [hfp] at hopen

/-! ### Sequences of calls -/

/-- A logger that has written nothing is sound. -/
theorem Logger.Initial.sound (h : lg₀.Initial) : lg₀.Sound :=
  ⟨by simp [h.files, Files.names], fun hfp => by simp [h.fp] at hfp, by simp [h.files]⟩

/-- How the log files compare to the messages passed, after any sequence of calls. -/
theorem log_run (h₀ : lg₀.Initial) (h : Run (Logger.Step localtime) lg₀ calls os lg) :
    lg.Sound ∧
      (Files.total lg.files).length ≤ (calls.flatMap SaveCall.message).length ∧
      (Along (Logger.Step localtime) (Logger.Keeps localtime) lg₀ calls →
        Files.total lg.files = calls.flatMap SaveCall.message ∧ lg.OpenLast) ∧
      (¬ Along (Logger.Step localtime) (Logger.Keeps localtime) lg₀ calls →
        (Files.total lg.files).length < (calls.flatMap SaveCall.message).length) := by
  induction h with
  | start =>
      refine ⟨h₀.sound, by simp [h₀.files, Files.total], fun _ => ⟨by simp [h₀.files, Files.total],
        fun hfp => by simp [h₀.fp] at hfp⟩, fun hn => absurd along_nil hn⟩
  | @step calls os lg call lg' o hrun ht ih =>
      obtain ⟨hs, hle, hkeep, hlose⟩ := ih
      obtain ⟨rfl, -⟩ := Prod.mk.inj (Option.some.inj ht)
      rw [along_concat deterministic_ofFn hrun, List.flatMap_append, List.flatMap_singleton,
        List.length_append]
      have hstep : (Files.total (saveLogfile localtime lg call).files).length ≤
          (Files.total lg.files).length + call.message.length := saveLogfile_length_le hs
      refine ⟨hs.save, by omega, ?_, ?_⟩
      · rintro ⟨hall, hk⟩
        obtain ⟨htotal, hlast⟩ := hkeep hall
        obtain ⟨htotal', hlast'⟩ := saveLogfile_keeps hs hlast hk
        exact ⟨by rw [htotal', htotal], hlast'⟩
      · intro hn
        by_cases hall : Along (Logger.Step localtime) (Logger.Keeps localtime) lg₀ calls
        · have := saveLogfile_length_lt hs fun hk => hn ⟨hall, hk⟩
          omega
        · have := hlose hall
          omega

/-- **When the log loses nothing.** The log files, in the order in which they were made,
contain exactly the messages passed exactly if each call that found no file open had an
empty message and made a name that no log file had. -/
theorem log_complete_iff (h₀ : lg₀.Initial)
    (h : Run (Logger.Step localtime) lg₀ calls os lg) :
    Files.total lg.files = calls.flatMap SaveCall.message ↔
      Along (Logger.Step localtime) (Logger.Keeps localtime) lg₀ calls := by
  obtain ⟨-, -, hkeep, hlose⟩ := log_run h₀ h
  constructor
  · intro heq
    by_contra hn
    have := hlose hn
    rw [heq] at this
    omega
  · exact fun hall => (hkeep hall).1

end

/-! ### The first message -/

/-- A log that was just configured. -/
def freshLogger : Logger :=
  { m_filesize := 100, m_log_rootpath := ascii "/tmp", m_log_filename_prefix_ := ascii "any",
    m_log_filename := [], m_log_fp := false, files := [] }

/-- The start of the epoch, whatever the clock says. -/
def epoch (_ : ℤ) : Tm :=
  { tm_year := 70, tm_mon := 0, tm_mday := 1, tm_hour := 0, tm_min := 0, tm_sec := 0 }

/-- This logger has written nothing. -/
theorem freshLogger_initial : freshLogger.Initial := ⟨rfl, rfl⟩

/-- Only the empty first message is lost: the file holds all that was logged. -/
theorem log_complete_iff_fresh :
    ascii "b" = [] ++ ascii "b" ↔
      Along (Logger.Step epoch) (Logger.Keeps epoch) freshLogger
        [⟨[], [], 0, true⟩, ⟨[], ascii "b", 0, true⟩] := by
  have hrun : Run (Logger.Step epoch) freshLogger
      [⟨[], [], 0, true⟩, ⟨[], ascii "b", 0, true⟩] _ _ := run_of_exec rfl
  exact log_complete_iff freshLogger_initial hrun

/-- The first message passed is not in the log. -/
theorem firstMessage_lost :
    ∃ lg, Run (Logger.Step epoch) freshLogger [⟨[], ascii "a", 0, true⟩] [] lg ∧
      Files.names lg.files = [ascii "/tmp/any_19700101_000000.log"] ∧
      Files.total lg.files ≠ ascii "a" :=
  ⟨_, run_of_exec rfl, by decide, by decide⟩

end AnyServer
