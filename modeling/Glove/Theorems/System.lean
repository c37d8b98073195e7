import Glove.System
import Glove.Theorems.InOrder
import Glove.Theorems.CatchUp
import Glove.Theorems.Keystrokes

/-! The glove and the host together. A run of the system is one of the glove and one of the host, and every byte that the
    glove sends is a character that the host can decode; so what holds of the host for every sequence of characters
    holds of it for the bytes of the glove. -/

namespace Glove
open Mealy ImuFsm Sensing Pipe

/-- The bytes that the glove sends in a run of the system. -/
def bytes (env : Env) (data : InstanceData) (memory : SensorReading) (as : List (Label Unit FakeKb.Action)) : List Char :=
  ((normalMode env).outputs (Main.init data memory) (produced as)).filterMap Obs.byte?

/-! ### The characters that the host receives -/

/-- The characters that the steps of the reader take. -/
def characters (as : List FakeKb.Action) : List Char :=
  as.filterMap fun
    | .reader (.receive c) => some c
    | _ => none

theorem step_received {autocorrectOn : Bool} {spell : List Char → List Char} {s t : FakeKb.InputMode} {a : FakeKb.Action}
    (h : (FakeKb.inputMode autocorrectOn spell).step s a = some t) : t.received = s.received ++ characters [a] := by
  cases a with
  | reader a =>
    rcases FakeKb.runReader_cases h with ⟨c, rfl, -, rfl⟩ | ⟨rfl, -, -, rfl⟩
    · rfl
    · exact (List.append_nil _).symm
  | writer a =>
    rcases FakeKb.runWriter_cases h with ⟨-, rfl⟩ | ⟨-, -, rfl⟩ | ⟨-, -, rfl⟩ | ⟨-, rfl⟩ | ⟨x, rest, -, rfl⟩ | ⟨-, rfl⟩ <;>
      exact (List.append_nil _).symm

theorem run_received {autocorrectOn : Bool} {spell : List Char → List Char} {s t : FakeKb.InputMode}
    {as : List FakeKb.Action} (h : (FakeKb.inputMode autocorrectOn spell).run s as = some t) :
    t.received = s.received ++ characters as := by
  induction as generalizing s with
  | nil =>
    cases h
    exact (List.append_nil _).symm
  | cons a as ih =>
    obtain ⟨u, hstep, hrun⟩ := Lts.run_cons.mp h
    have hsplit : characters (a :: as) = characters [a] ++ characters as := by
      rw [characters, ← List.singleton_append, List.filterMap_append]
      rfl
    rw [ih hrun, step_received hstep, hsplit, List.append_assoc]

/-- The bytes that the reader takes are its characters. -/
theorem taken_eq {as : List FakeKb.Action} {items : List Char}
    (h : List.Forall₂ (fun accepts x => accepts x = true) (as.filterMap reads) items)
    (hitems : ∀ byte ∈ items, FakeKb.decode (UInt8.ofNat byte.toNat) = some byte) : items = characters as := by
  induction as generalizing items with
  | nil =>
    cases h
    rfl
  | cons a as ih =>
    cases hreads : reads a with
    | none =>
      rw [List.filterMap_cons_none hreads] at h
      rw [ih h hitems]
      cases a with
      | reader a =>
        cases a with
        | receive c => cases hreads
        | publish => rfl
      | writer a => rfl
    | some accepts =>
      rw [List.filterMap_cons_some hreads] at h
      obtain ⟨x, items, hx, hrest, rfl⟩ := List.forall₂_cons_left_iff.mp h
      rw [ih hrest fun byte hbyte => hitems byte (List.mem_cons_of_mem _ hbyte)]
      cases a with
      | reader a =>
        cases a with
        | receive c =>
          cases hreads
          have hc : x = c := Option.some.inj ((hitems x List.mem_cons_self).symm.trans (of_decide_eq_true hx))
          rw [hc]
          rfl
        | publish => cases hreads
      | writer a => cases hreads

section Run
variable {env : Env} {data : InstanceData} {memory : SensorReading} {autocorrectOn : Bool} {spell : List Char → List Char}
  {as : List (Label Unit FakeKb.Action)} {s : System}

theorem bytes_typed {byte : Char} (h : byte ∈ bytes env data memory as) : Typed byte :=
  sendable_typed (normalMode_sendable env data memory (produced as) byte h)

theorem system_run (h : (system env autocorrectOn spell).run (System.init data memory) as = some s) :
    (FakeKb.inputMode autocorrectOn spell).run .init (consumed as) = some s.consumer ∧
      s.consumer.received ++ s.channel = bytes env data memory as := by
  obtain ⟨-, hconsumer, items, hitems, hchannel⟩ := run_sides h
  have hbytes : items ++ s.channel = bytes env data memory as := hchannel
  have htaken : items = characters (consumed as) := by
    refine taken_eq hitems fun byte hbyte => ?_
    have hsent : byte ∈ bytes env data memory as := hbytes ▸ List.mem_append_left _ hbyte
    exact (bytes_typed hsent).1
  refine ⟨hconsumer, ?_⟩
  rw [run_received hconsumer, ← hbytes, htaken]
  rfl

end Run

/-! ### What is typed -/

/-- In every interleaving of the glove and the two threads of the host: what the host received and what is on the way are
    the bytes that the glove sent; what was typed are the strings that the writer started, and these are the strings of
    the bytes numbered `idxs`, whose numbers never go down and of which none comes up a third time; and with autocorrect
    off the script for everything typed is a keystroke or the delete key. -/
theorem system_types (env : Env) (data : InstanceData) (memory : SensorReading) (autocorrectOn : Bool)
    (spell : List Char → List Char) (as : List (Label Unit FakeKb.Action)) (s : System)
    (hrun : (system env autocorrectOn spell).run (System.init data memory) as = some s) :
    s.consumer.received ++ s.channel = bytes env data memory as ∧
      (∃ strings, ((FakeKb.inputMode autocorrectOn spell).record FakeKb.sentString).run (.init, []) (consumed as) =
          some (s.consumer, strings) ∧
        s.consumer.sent ++ s.consumer.unsent = strings.flatten ∧
        ∃ idxs : List Nat,
          (strings.map some = idxs.map fun i =>
            (bytes env data memory as)[i]?.map fun c => FakeKb.correct autocorrectOn spell [c]) ∧
          idxs.Pairwise (· ≤ ·) ∧ ∀ i, idxs.count i ≤ 2) ∧
      (autocorrectOn = false → ∀ key ∈ s.consumer.sent, Typed key) := by
  obtain ⟨hhost, hbytes⟩ := system_run hrun
  obtain ⟨strings, hrecord⟩ := (Lts.run_record []).mp hhost
  obtain ⟨hsends, idxs, hordered⟩ := FakeKb.record_ordered hrecord
  have hstarted : strings.map some = idxs.map fun i =>
      (bytes env data memory as)[i]?.map fun c => FakeKb.correct autocorrectOn spell [c] := by
    rw [hordered.started]
    refine List.map_congr_left fun i hi => ?_
    rw [← hbytes, List.getElem?_append_left (hordered.known i hi), FakeKb.handed, List.getElem?_map]
  refine ⟨hbytes, ⟨strings, hrecord, hsends, idxs, hstarted, hordered.inOrder, hordered.twice⟩, fun hoff key hkey => ?_⟩
  -- A string that was typed is the one of a byte that the glove sent.
  have hflat : key ∈ strings.flatten := hsends ▸ List.mem_append_left _ hkey
  obtain ⟨string, hstring, hmem⟩ := List.mem_flatten.mp hflat
  have hsome : some string ∈ strings.map some := List.mem_map_of_mem hstring
  rw [hstarted] at hsome
  obtain ⟨i, -, hi⟩ := List.mem_map.mp hsome
  obtain ⟨c, hc, rfl⟩ := Option.map_eq_some_iff.mp hi
  obtain rfl : key = c := by simpa [FakeKb.correct, hoff] using hmem
  exact bytes_typed (List.mem_of_getElem? hc)

/-- The host types a byte, and waits for the next one. -/
def hostTypes (byte : Char) : List (Label Unit FakeKb.Action) :=
  [.consume (.reader (.receive byte)), .consume (.reader .publish), .consume (.writer .acquire), .consume (.writer .test),
    .consume (.writer .fetch), .consume (.writer .send), .consume (.writer .release), .consume (.writer .acquire),
    .consume (.writer .test)]

def afterTyping (producer : Main) (byte : Char) : System :=
  ⟨producer, [], ⟨[byte], false, .read, .waiting, [byte], [byte]⟩⟩

theorem a_signed : ∃ env ticks,
    ((normalMode env).outputs (Main.init zeroed ⟨0, 0, 0, 0, 0, 0, ""⟩) ticks).filterMap Obs.byte? = ['a'] := by
  have htext : 'a' ∈ typable := by decide
  exact text_signed zeroed ⟨0, 0, 0, 0, 0, 0, ""⟩ fun key hkey => List.mem_singleton.mp hkey ▸ htext

theorem hostTypes_run (env : Env) (producer : Main) :
    (system env false id).run ⟨producer, ['a'], .init⟩ (hostTypes 'a') = some (afterTyping producer 'a') := rfl

theorem system_types_a : ∃ env as s, (system env false id).run (System.init zeroed ⟨0, 0, 0, 0, 0, 0, ""⟩) as = some s ∧
    s.consumer.sent = ['a'] ∧ s.consumer.received ++ s.channel = bytes env zeroed ⟨0, 0, 0, 0, 0, 0, ""⟩ as ∧
      ∀ key ∈ s.consumer.sent, Typed key := by
  obtain ⟨env, ticks, hbytes⟩ := a_signed
  let as : List (Label Unit FakeKb.Action) := ticks.map .produce ++ hostTypes 'a'
  have hrun : (system env false id).run (System.init zeroed ⟨0, 0, 0, 0, 0, 0, ""⟩) as =
      some (afterTyping ((normalMode env).after (Main.init zeroed ⟨0, 0, 0, 0, 0, 0, ""⟩) ticks) 'a') := by
    rw [Lts.run_append, system, run_produce]
    show (system env false id).run ⟨_, [] ++ _, _⟩ _ = _
    rw [List.nil_append, System.init, hbytes]
    exact hostTypes_run env _
  obtain ⟨hreceived, -, htyped⟩ := system_types env zeroed ⟨0, 0, 0, 0, 0, 0, ""⟩ false id as _ hrun
  exact ⟨env, as, _, hrun, rfl, hreceived, htyped rfl⟩

/-! ### The host catches up -/

section Work
open FakeKb
variable {autocorrectOn : Bool} {spell : List Char → List Char} {s t : InputMode}

/-- The work that a byte makes for the host. -/
def price (autocorrectOn : Bool) (spell : List Char → List Char) (byte : Char) : Nat :=
  ((decode (UInt8.ofNat byte.toNat)).map fun c => 3 * (correct autocorrectOn spell [c]).length + 8).getD 0

theorem receive_work {c : Char} (h : runReader autocorrectOn spell s (.receive c) = some t) :
    t.work < s.work + (3 * (correct autocorrectOn spell [c]).length + 8) := by
  rcases runReader_cases h with ⟨c, hc, hpc, rfl⟩ | ⟨hc, -⟩
  · cases hc
    cases hw : s.writer <;> cases hflag : s.itemAvailable <;>
      simp [InputMode.work, InputMode.writerWork, InputMode.testWork, hw, hflag, hpc] <;> omega
  · cases hc

theorem reads_work {a : Action} {accepts : Char → Bool} {byte : Char} (hreads : reads a = some accepts)
    (hbyte : accepts byte = true) (h : (inputMode autocorrectOn spell).step s a = some t) :
    t.work < s.work + price autocorrectOn spell byte := by
  cases a with
  | reader a =>
    cases a with
    | receive c =>
      cases hreads
      rw [price, of_decide_eq_true hbyte]
      exact receive_work h
    | publish => cases hreads
  | writer a => cases hreads

theorem reads_eq_none {a : Action} : reads a = none ↔ ¬Receives a := by
  cases a with
  | reader a => cases a <;> simp [reads, Receives]
  | writer a => simp [reads, Receives]

end Work

/-- The host can do nothing: both threads wait, and nothing can be read. -/
def System.Stopped (env : Env) (autocorrectOn : Bool) (spell : List Char → List Char) (s : System) : Prop :=
  ∀ a, (system env autocorrectOn spell).step s (.consume a) = none

section Stopped
variable {env : Env} {autocorrectOn : Bool} {spell : List Char → List Char} {s : System}

theorem System.Stopped.consumer (h : s.Stopped env autocorrectOn spell) :
    FakeKb.Stopped autocorrectOn spell s.consumer := by
  intro a ha
  have hstep := h a
  simp only [system, pipe, reads_eq_none.mpr ha] at hstep
  exact Option.map_eq_none_iff.mp hstep

theorem System.Stopped.channel (h : s.Stopped env autocorrectOn spell) (hreader : s.consumer.reader = .read)
    (htyped : ∀ byte ∈ s.channel, Typed byte) : s.channel = [] := by
  by_contra hne
  obtain ⟨byte, rest, hchannel⟩ := List.exists_cons_of_ne_nil hne
  have hdecode := (htyped byte (hchannel ▸ List.mem_cons_self)).1
  have hstep := h (.reader (.receive byte))
  simp [system, pipe, reads, hchannel, hdecode, FakeKb.inputMode, FakeKb.runReader, hreader] at hstep

end Stopped

theorem afterTyping_stopped (env : Env) (producer : Main) (byte : Char) :
    (afterTyping producer byte).Stopped env false id := by
  rintro (⟨c | _⟩ | a)
  · rfl
  · rfl
  · cases a <;> rfl

/-- The bytes that the glove sends from a state on. -/
def meanwhile (env : Env) (s : System) (bs : List (Label Unit FakeKb.Action)) : List Char :=
  ((normalMode env).outputs s.producer (produced bs)).filterMap Obs.byte?

/-- From every state that a run of the system reaches: however its threads are scheduled, the host takes no more steps than
    its work, the bytes on the way and those that the glove sends meanwhile make; and where it stops both threads wait, no
    byte is on the way, and the last string that was typed is that of the last byte that the glove sent. -/
theorem system_catchesUp (env : Env) (data : InstanceData) (memory : SensorReading) (autocorrectOn : Bool)
    (spell : List Char → List Char) (as bs : List (Label Unit FakeKb.Action)) (s t : System)
    (hs : (system env autocorrectOn spell).run (System.init data memory) as = some s)
    (ht : (system env autocorrectOn spell).run s bs = some t) :
    (consumed bs).length ≤ s.consumer.work + (s.channel.map (price autocorrectOn spell)).sum +
        ((meanwhile env s bs).map (price autocorrectOn spell)).sum ∧
      ∃ strings, ((FakeKb.inputMode autocorrectOn spell).record FakeKb.sentString).run (.init, []) (consumed (as ++ bs)) =
          some (t.consumer, strings) ∧
        (t.Stopped env autocorrectOn spell →
          FakeKb.Quiescent t.consumer ∧ t.channel = [] ∧ t.consumer.received = bytes env data memory (as ++ bs) ∧
            t.consumer.sent = strings.flatten ∧
            ∀ c ∈ (bytes env data memory (as ++ bs)).getLast?,
              strings.getLast? = some (FakeKb.correct autocorrectOn spell [c])) := by
  have hlen := run_consumed_length_le FakeKb.InputMode.work (price autocorrectOn spell)
    (fun _ _ _ hnone hstep => FakeKb.step_work (reads_eq_none.mp hnone) hstep)
    (fun _ _ _ _ _ hreads hbyte hstep => reads_work hreads hbyte hstep) ht
  have hrun : (system env autocorrectOn spell).run (System.init data memory) (as ++ bs) = some t := by
    rw [Lts.run_append, hs]
    exact ht
  obtain ⟨hhost, hbytes⟩ := system_run hrun
  obtain ⟨strings, hrecord⟩ := (Lts.run_record []).mp hhost
  refine ⟨le_trans (Nat.le_add_right _ _) hlen, strings, hrecord, fun hstopped => ?_⟩
  obtain ⟨hquiescent, hsent, hlast⟩ := FakeKb.stopped_sent hrecord hstopped.consumer
  have hchannel : t.channel = [] := hstopped.channel hquiescent.1 fun byte hbyte =>
    bytes_typed (hbytes ▸ List.mem_append_right _ hbyte)
  have hreceived : t.consumer.received = bytes env data memory (as ++ bs) := by
    rw [hchannel, List.append_nil] at hbytes
    exact hbytes
  exact ⟨hquiescent, hchannel, hreceived, hsent, hreceived ▸ hlast⟩

/-- The glove signs an 'a', and then the host types it. -/
theorem system_catchesUp_a : ∃ env, ∃ ticks : List Unit, ∃ t,
    (system env false id).run (System.init zeroed ⟨0, 0, 0, 0, 0, 0, ""⟩) (ticks.map .produce ++ hostTypes 'a') = some t ∧
      FakeKb.Quiescent t.consumer ∧ t.channel = [] ∧
      t.consumer.received = bytes env zeroed ⟨0, 0, 0, 0, 0, 0, ""⟩ (ticks.map .produce ++ hostTypes 'a') := by
  obtain ⟨env, ticks, hbytes⟩ := a_signed
  have hs : (system env false id).run (System.init zeroed ⟨0, 0, 0, 0, 0, 0, ""⟩) (ticks.map .produce) =
      some ⟨(normalMode env).after (Main.init zeroed ⟨0, 0, 0, 0, 0, 0, ""⟩) ticks, ['a'], .init⟩ := by
    rw [system, run_produce, System.init, hbytes]
    rfl
  have ht := hostTypes_run env ((normalMode env).after (Main.init zeroed ⟨0, 0, 0, 0, 0, 0, ""⟩) ticks)
  obtain ⟨-, strings, -, hstopped⟩ :=
    system_catchesUp env zeroed ⟨0, 0, 0, 0, 0, 0, ""⟩ false id (ticks.map .produce) _ _ _ hs ht
  obtain ⟨hquiescent, hchannel, hreceived, -⟩ := hstopped (afterTyping_stopped env _ 'a')
  exact ⟨env, ticks, _, by rw [Lts.run_append, hs]; exact ht, hquiescent, hchannel, hreceived⟩

end Glove
