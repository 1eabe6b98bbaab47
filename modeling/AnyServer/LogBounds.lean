import Mathlib.Data.Int.Init
import AnyServer.Logger

/-!
# How Large Log Files Get

`Logger::info`, `debug`, `warning` and `error` expand the macro `LOGGING`: it makes a prefix in a
buffer of 256 bytes and the message in one of 4096, both cut by `snprintf` to what fits with a
NUL, and `__log__` passes the two on to `__save_logfile__` if the log is to be written.

What `format` and the arguments expand to is an input here, as is the time. The calls of several
threads come one after the other, for `__save_logfile__` holds a mutex from its first statement
to its last. `setLogLevel` may be called in between, as long as it is with the same file size.
What goes to the console is left out.

`__save_logfile__` compares `m_filesize`, an `unsigned int`, to `st_size`, a signed integer of
64 bits, which has all the values of the other type.

## Main results

* `Logger.Bounded.save`: a call keeps the sizes within bounds.
* `log_bounded`: they are so after any sequence of calls.
-/

namespace AnyServer

open Lts

/-- `Logger::LOG_TYPE`. -/
inductive LogType
  | DEBUG
  | INFO
  | ERROR
  | WARNING
  deriving DecidableEq, Repr

/-- `MAX_PREFIX_LEN`. -/
def MAX_PREFIX_LEN : ℕ := 256

/-- `MAX_MSG_LEN`. -/
def MAX_MSG_LEN : ℕ := 4 * 1024

/-- `Logger::getLogTypeString`. -/
def getLogTypeString : LogType → Bytes
  | .DEBUG => ascii "DEBUG"
  | .INFO => ascii "INFO"
  | .ERROR => ascii "ERROR"
  | .WARNING => ascii "WARN"

/-- `Logger::getDate`, cut by `snprintf` to 15 characters. -/
def getDate (localtime : ℤ → Tm) (now_t : ℤ) : Bytes :=
  let t := localtime now_t
  (zeroPadded 2 t.tm_hour ++ ascii ":" ++ zeroPadded 2 t.tm_min ++ ascii ":" ++
    zeroPadded 2 t.tm_sec).take 15

/-- The static members of `Logger`. -/
structure LogState where
  m_info : Bool
  m_debug : Bool
  m_warning : Bool
  m_error : Bool
  m_filewrite : Bool
  m_use_date : Bool
  file : Logger
  deriving DecidableEq, Repr

/-- A call of one of the four functions: its arguments, with what the format and the variable
arguments expand to, the two times read, and whether `fopen` succeeds if it is called. -/
structure LogCall where
  filename : Bytes
  linenumber : ℕ
  funcname : Bytes
  formatted : Bytes
  now_t : ℤ
  timer : ℤ
  fopen : Bool
  deriving DecidableEq, Repr

/-- `msg_prefix` of `LOGGING`. The line number, an `unsigned int`, is printed with `%d`. -/
def msgPrefix (localtime : ℤ → Tm) (m_use_date : Bool) (logtype : LogType) (call : LogCall) :
    Bytes :=
  let place := CString.read 0 call.filename ++ ascii ":" ++ CString.read 0 call.funcname ++
    ascii ":" ++ zeroPadded 0 ((call.linenumber : ℤ).bmod (2 ^ 32)) ++ ascii "] "
  let text :=
    if m_use_date then
      ascii "[" ++ getLogTypeString logtype ++ ascii "] [" ++ getDate localtime call.now_t ++
        ascii "][" ++ place
    else ascii "[" ++ getLogTypeString logtype ++ ascii "] [" ++ place
  text.take (MAX_PREFIX_LEN - 1)

/-- `msg` of `LOGGING`, as a `std::string`. -/
def LogCall.msg (call : LogCall) : Bytes :=
  CString.read 0 (call.formatted.take (MAX_MSG_LEN - 1))

/-- `Logger::__log__`. -/
def LogState.log (localtime : ℤ → Tm) (s : LogState) (msg_prefix_ msg : Bytes) (call : LogCall) :
    LogState :=
  if s.m_filewrite then
    { s with file := saveLogfile localtime s.file ⟨msg_prefix_, msg, call.timer, call.fopen⟩ }
  else s

/-- `LOGGING`. -/
def LogState.logging (localtime : ℤ → Tm) (s : LogState) (enable : Bool) (logtype : LogType)
    (call : LogCall) : LogState :=
  if enable then
    s.log localtime (msgPrefix localtime s.m_use_date logtype call) call.msg call
  else s

/-- `Logger::info`. -/
def LogState.info (localtime : ℤ → Tm) (s : LogState) (call : LogCall) : LogState :=
  s.logging localtime s.m_info .INFO call

/-- `Logger::debug`. -/
def LogState.debug (localtime : ℤ → Tm) (s : LogState) (call : LogCall) : LogState :=
  s.logging localtime s.m_debug .DEBUG call

/-- `Logger::warning`. -/
def LogState.warning (localtime : ℤ → Tm) (s : LogState) (call : LogCall) : LogState :=
  s.logging localtime s.m_warning .WARNING call

/-- `Logger::error`. -/
def LogState.error (localtime : ℤ → Tm) (s : LogState) (call : LogCall) : LogState :=
  s.logging localtime s.m_error .ERROR call

/-- `Logger::setLogLevel` with the file size that was set before. -/
def LogState.setLogLevel (s : LogState) (info debug warn error filewrite : Bool)
    (rootpath log_filename_prefix_ : Bytes) : LogState :=
  { s with
    m_info := info
    m_debug := debug
    m_warning := warn
    m_error := error
    m_filewrite := filewrite
    file := { s.file with
      m_log_rootpath := rootpath
      m_log_filename_prefix_ := log_filename_prefix_ } }

/-- What the program calls. -/
inductive LogInput
  | info (call : LogCall)
  | debug (call : LogCall)
  | warning (call : LogCall)
  | error (call : LogCall)
  | setLogLevel (info debug warn error filewrite : Bool) (rootpath log_filename_prefix_ : Bytes)
  deriving DecidableEq, Repr

/-- One call of the logger. -/
def LogState.next (localtime : ℤ → Tm) (s : LogState) : LogInput → LogState
  | .info call => s.info localtime call
  | .debug call => s.debug localtime call
  | .warning call => s.warning localtime call
  | .error call => s.error localtime call
  | .setLogLevel info debug warn error filewrite rootpath log_filename_prefix_ =>
      s.setLogLevel info debug warn error filewrite rootpath log_filename_prefix_

/-- The log, call by call. -/
abbrev LogState.Step (localtime : ℤ → Tm) : Lts LogState LogInput Empty :=
  ofFn fun s i => some (s.next localtime i, [])

/-! ### The bounds -/

/-- The open file is no larger than `m_filesize`, and no file is larger than that and one
message. -/
structure Logger.Bounded (lg : Logger) : Prop where
  open_le : lg.m_log_fp = true → (Files.content lg.files lg.path).length ≤ lg.m_filesize
  file_le : ∀ f ∈ lg.files,
    f.2.length ≤ lg.m_filesize + (MAX_PREFIX_LEN - 1) + (MAX_MSG_LEN - 1)

section

variable {localtime : ℤ → Tm} {lg : Logger} {s s₀ : LogState} {i : LogInput}
  {is : List LogInput} {os : List Empty}

/-- An empty log is within its bound. -/
theorem Logger.Initial.bounded (h : lg.Initial) : lg.Bounded :=
  ⟨fun hfp => by simp [h.fp] at hfp, by simp [h.files]⟩

/-- **One call of `__save_logfile__`**, with a message that fits in the two buffers. -/
theorem Logger.Bounded.save {call : SaveCall} (hs : lg.Sound) (hb : lg.Bounded)
    (hlen : call.message.length ≤ (MAX_PREFIX_LEN - 1) + (MAX_MSG_LEN - 1)) :
    (saveLogfile localtime lg call).Bounded := by
  rcases saveLogfile_cases localtime lg call with
    ⟨hfp, b, heq, hclosed⟩ | ⟨hfp, -, heq⟩ | ⟨hfp, -, heq⟩ <;> rw [heq]
  · refine ⟨fun hopen => ?_, fun f hf => ?_⟩
    · -- it is left open only when it is not too large
      have hopen : b = true := hopen
      refine Nat.not_lt.mp fun hlt => ?_
      rw [hclosed.mpr hlt] at hopen
      cases hopen
    · have hf : f ∈ Files.append lg.files lg.path call.message := hf
      by_cases hname : f.1 = lg.path
      · obtain ⟨c, hc, hcontent⟩ := Files.exists_of_mem_update hname hf
        have hbefore := hb.open_le hfp
        rw [Files.content_eq hs.names_nodup hc] at hbefore
        rw [hcontent, List.length_append]
        dsimp only at hbefore ⊢
        omega
      · exact hb.file_le f (Files.mem_of_mem_update hname hf)
  · refine ⟨fun _ => ?_, fun f hf => ?_⟩
    · have hempty : Files.content (Files.create lg.files
          (CString.read 0 (lg.newFilename localtime call.timer)))
            (CString.read 0 (lg.newFilename localtime call.timer)) = [] :=
        Files.content_create hs.names_nodup
      exact (congrArg List.length hempty).le.trans (Nat.zero_le _)
    · by_cases hname : f.1 = CString.read 0 (lg.newFilename localtime call.timer)
      · rw [Files.eq_nil_of_mem_create hname hf]
        exact Nat.zero_le _
      · exact hb.file_le f (Files.mem_of_mem_create hname hf)
  · refine ⟨fun hopen => ?_, hb.file_le⟩
    rw [hfp] at hopen
    cases hopen

/-- `snprintf` cuts the prefix to its buffer. -/
theorem length_msgPrefix_le (localtime : ℤ → Tm) (m_use_date : Bool) (logtype : LogType)
    (call : LogCall) :
    (msgPrefix localtime m_use_date logtype call).length ≤ MAX_PREFIX_LEN - 1 :=
  List.length_take_le _ _

/-- It cuts the message to its buffer. -/
theorem LogCall.length_msg_le (call : LogCall) : call.msg.length ≤ MAX_MSG_LEN - 1 := by
  have hread : call.msg.length ≤ (call.formatted.take (MAX_MSG_LEN - 1)).length :=
    (List.takeWhile_prefix _).length_le
  exact hread.trans (List.length_take_le _ _)

/-- **Any of the four functions.** -/
theorem LogState.logging_bounded (hs : s.file.Sound) (hb : s.file.Bounded) (enable : Bool)
    (logtype : LogType) (call : LogCall) :
    (s.logging localtime enable logtype call).file.Sound ∧
      (s.logging localtime enable logtype call).file.Bounded ∧
      (s.logging localtime enable logtype call).file.m_filesize = s.file.m_filesize := by
  simp only [logging, log]
  split
  · split
    · refine ⟨hs.save, hb.save hs ?_, ?_⟩
      · have hprefix := length_msgPrefix_le localtime s.m_use_date logtype call
        have hmsg := call.length_msg_le
        simp only [SaveCall.message, List.length_append]
        omega
      · rcases saveLogfile_cases localtime s.file _ with
          ⟨-, b, heq, -⟩ | ⟨-, -, heq⟩ | ⟨-, -, heq⟩ <;> rw [heq]
    · exact ⟨hs, hb, rfl⟩
  · exact ⟨hs, hb, rfl⟩

/-- **One step.** -/
theorem LogState.next_bounded (hs : s.file.Sound) (hb : s.file.Bounded) (i : LogInput) :
    (s.next localtime i).file.Sound ∧ (s.next localtime i).file.Bounded ∧
      (s.next localtime i).file.m_filesize = s.file.m_filesize := by
  cases i with
  | info call => exact logging_bounded hs hb s.m_info .INFO call
  | debug call => exact logging_bounded hs hb s.m_debug .DEBUG call
  | warning call => exact logging_bounded hs hb s.m_warning .WARNING call
  | error call => exact logging_bounded hs hb s.m_error .ERROR call
  | setLogLevel _ _ _ _ _ _ _ =>
      exact ⟨⟨hs.names_nodup, hs.open_mem, hs.closed_full⟩, ⟨hb.open_le, hb.file_le⟩, rfl⟩

/-- **Log files stay within bounds.** After any sequence of calls, the file that is open is no
larger than the file size set at the beginning, and no log file is larger than that and a message
with its prefix. -/
theorem log_bounded (h₀ : s₀.file.Initial) (h : Run (LogState.Step localtime) s₀ is os s) :
    (s.file.m_log_fp = true →
      (Files.content s.file.files s.file.path).length ≤ s₀.file.m_filesize) ∧
    ∀ f ∈ s.file.files, f.2.length ≤ s₀.file.m_filesize + 255 + 4095 := by
  have hall : s.file.Sound ∧ s.file.Bounded ∧ s.file.m_filesize = s₀.file.m_filesize := by
    refine h.invariant (P := fun _ _ s =>
      s.file.Sound ∧ s.file.Bounded ∧ s.file.m_filesize = s₀.file.m_filesize)
      ⟨h₀.sound, h₀.bounded, rfl⟩ ?_
    rintro is os s i s' o _ ⟨hs, hb, hsize⟩ ht
    obtain ⟨rfl, -⟩ := Prod.mk.inj (Option.some.inj ht)
    obtain ⟨hs', hb', hsize'⟩ := LogState.next_bounded hs hb i
    exact ⟨hs', hb', hsize'.trans hsize⟩
  obtain ⟨-, hb, hsize⟩ := hall
  rw [← hsize]
  exact ⟨hb.open_le, hb.file_le⟩

end

/-! ### A log that is rotated -/

/-- A log with a file size of 20 bytes, that is written. -/
def smallLog : LogState :=
  { m_info := true, m_debug := true, m_warning := true, m_error := true, m_filewrite := true,
    m_use_date := true, file := { freshLogger with m_filesize := 20 } }

/-- A call from `main` with the message `a`, in this second. -/
def callAt (timer : ℤ) : LogCall :=
  { filename := ascii "x.c", linenumber := 1, funcname := ascii "main", formatted := ascii "a",
    now_t := timer, timer, fopen := true }

/-- A log of a few bytes is closed before it outgrows them. -/
theorem log_bounded_smallLog :
    ∃ s, Run (LogState.Step epoch) smallLog [.info (callAt 0), .error (callAt 0)] [] s ∧
      s.file.m_log_fp = false ∧
      (s.file.m_log_fp = true →
        (Files.content s.file.files s.file.path).length ≤ smallLog.file.m_filesize) ∧
      ∀ f ∈ s.file.files, f.2.length ≤ smallLog.file.m_filesize + 255 + 4095 := by
  have hrun : Run (LogState.Step epoch) smallLog [.info (callAt 0), .error (callAt 0)] _ _ :=
    run_of_exec rfl
  exact ⟨_, hrun, by decide, log_bounded ⟨rfl, rfl⟩ hrun⟩

end AnyServer
