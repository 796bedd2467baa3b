import P2PShopping.System.Texts

/-! What happens to messages happens to bytes.

`texts_simulated` takes a run of datagrams to a run of messages. Here is the way back: as
long as the datagrams that are handled fit the buffer of their receiver, a run of messages
is a run of datagrams with the same moves, whatever the buffers held before
(`messages_realised`). So what goes wrong between messages goes wrong on the wire, and a
datagram that is too long is the only thing that tells the two apart. -/
namespace P2PShopping
open Collections Json Runs

variable {P : Type} [Double P] (dumpFloat : P → List UInt8)

/-- The move with datagrams, into these buffers. -/
def Move.inBytes (up : Vector UInt8 1024) (down : Vector UInt8 4096) : Move P → TextMove P
  | .user a op sent => .user a op sent
  | .serve k => .serve k up
  | .deliver k sent => .deliver k down sent
  | .loseUp k => .loseUp k
  | .loseDown k => .loseDown k
  | .push k => .push k
  | .event => .event
  | .timeout k => .timeout k
  | .tick d => .tick d

/-- The datagram that the move takes fits the buffer of its receiver, with its NUL. -/
def System.fits (s : System P) : Move P → Bool
  | .serve k => s.toServer[k]?.all fun d => (d.1.toJson.dump dumpFloat).length < 1024
  | .deliver k _ => s.toClient[k]?.all fun d => (d.1.toJson.dump dumpFloat).length < 4096
  | _ => true

section Step
variable {dumpFloat} {strtod : List UInt8 → Option P} {t : TextSystem P} {s s' : System P}
  {o : Log P}

/-- A step of the server that reads messages is one of the server that reads texts. -/
theorem Writes.serverStep_realised (h : Writes dumpFloat t s) (input input' : ServerInput P)
    (hinput : ∀ j a, input' = .receive j a → ∃ m : ClientMessage P, j = m.toJson)
    (hserver : t.server.step input =
      (s.server.step input').map fun r => (r.1.reading, r.2)) (log : Log P) (hup : log.up = [])
    (hstep : s.serverStep input' log = some (s', o)) :
    ∃ o' t', t.serverStep dumpFloat input = some (t', o') ∧ Writes dumpFloat t' s' ∧
      SentAlike dumpFloat o' o := by
  obtain ⟨server, sent, hs, -, -⟩ := System.serverStep_eq_some hstep
  obtain ⟨t', o', ht⟩ : ∃ t' o', t.serverStep dumpFloat input = some (t', o') := by
    simp only [TextSystem.serverStep, hserver, hs, Option.map_some]
    exact ⟨_, _, rfl⟩
  obtain ⟨o₁, s₁, hs₁, hwrites, hsent⟩ := h.serverStep input input' hinput hserver log hup ht
  rw [hstep] at hs₁
  cases hs₁
  exact ⟨o', t', ht, hwrites, hsent⟩

/-- Of two related states, a move of messages that fit is the move of their texts. -/
theorem Writes.step_realised (hformat : FloatFormat dumpFloat strtod) (up : Vector UInt8 1024)
    (down : Vector UInt8 4096) {l : Move P} (h : Writes dumpFloat t s)
    (hfits : s.fits dumpFloat l = true)
    (hstep : s.step l = some (s', o)) :
    ∃ o' t', t.step dumpFloat strtod (l.inBytes up down) = some (t', o') ∧
      Writes dumpFloat t' s' ∧ SentAlike dumpFloat o' o := by
  have hreads : t.server = s.server.reading := h.server
  cases l with
  | user a op sent =>
    have hclient : t.clients a = s.clients a := congrFun h.clients a
    simp only [System.step] at hstep
    split at hstep
    case isTrue hrunning =>
      cases hstep
      obtain ⟨hwrites, hsent⟩ := h.act a (op.run (s.clients a) sent)
      refine ⟨_, _, ?_, hwrites, hsent⟩
      simp only [Move.inBytes, TextSystem.step, hclient, if_pos hrunning]
    case isFalse => cases hstep
  | serve k =>
    simp only [System.step] at hstep
    split at hstep
    case h_1 => cases hstep
    case h_2 m a hk =>
      have hshort : (m.toJson.dump dumpFloat).length < 1024 := by
        simpa [System.fits, hk] using hfits
      have htext : t.toServer[k]? = some (m.toJson.dump dumpFloat, a) := by
        rw [h.toServer, List.getElem?_map, hk]
        rfl
      have hserver := receive_reading s.server m a
      rw [← hreads] at hserver
      obtain ⟨o', t', ht, hwrites, hsent⟩ := (h.takeUp k).serverStep_realised
        (.receive m.toJson.normal a) (.receive m.toJson a)
        (fun j b hj => by cases hj; exact ⟨m, rfl⟩) hserver {served := some (m, a)} rfl hstep
      refine ⟨o', t', ?_, hwrites, hsent⟩
      simp only [Move.inBytes, TextSystem.step, htext,
        received_dump hformat (by decide) up m.flat, if_pos hshort]
      exact ht
  | deliver k sent =>
    simp only [System.step] at hstep
    split at hstep
    case h_1 => cases hstep
    case h_2 m a hk =>
      have hshort : (m.toJson.dump dumpFloat).length < 4096 := by
        simpa [System.fits, hk] using hfits
      have hplain := (h.plain (m, a) (List.mem_of_getElem? hk)).flat
      have hclient : t.clients a = s.clients a := congrFun h.clients a
      have htext : t.toClient[k]? = some (m.toJson.dump dumpFloat, a) := by
        rw [h.toClient, List.getElem?_map, hk]
        rfl
      cases hstep
      obtain ⟨hwrites, hsent⟩ :=
        (h.takeDown k).act a ((s.clients a).handleReceivedMessage m.toJson sent)
      refine ⟨_, _, ?_, hwrites, hsent⟩
      simp only [Move.inBytes, TextSystem.step, htext,
        received_dump hformat (by decide) down hplain, if_pos hshort, hclient,
        handle_alike _ hplain.alike]
  | loseUp k =>
    cases hstep
    exact ⟨{}, _, rfl, h.takeUp k, rfl, rfl⟩
  | loseDown k =>
    cases hstep
    exact ⟨{}, _, rfl, h.takeDown k, rfl, rfl⟩
  | push k =>
    have hserver := push_reading s.server k h.workers
    rw [← hreads] at hserver
    exact h.serverStep_realised _ _ (fun j a hj => by cases hj) hserver {} rfl hstep
  | event =>
    have hserver := step_reading s.server .event (by simp) (by simp)
    rw [← hreads] at hserver
    exact h.serverStep_realised _ _ (fun j a hj => by cases hj) hserver {} rfl hstep
  | timeout k =>
    have hserver := step_reading s.server (.timeout k) (by simp) (by simp)
    rw [← hreads] at hserver
    exact h.serverStep_realised _ _ (fun j a hj => by cases hj) hserver
      {fired := s.server.timeoutThreads[k]?.map Prod.fst} rfl hstep
  | tick d =>
    have hserver := step_reading s.server (.tick d) (by simp) (by simp)
    rw [← hreads] at hserver
    exact h.serverStep_realised _ _ (fun j a hj => by cases hj) hserver {} rfl hstep

end Step

/-- **Every run of messages that fit is a run of datagrams**, with the same moves and the
texts of the same messages sent, whatever stands in the buffers. -/
theorem messages_realised {dumpFloat : P → List UInt8} {strtod : List UInt8 → Option P}
    (hformat : FloatFormat dumpFloat strtod) (up : Vector UInt8 1024) (down : Vector UInt8 4096)
    {peers : SockaddrIn → Option ClientConfig} {tr : List (Move P × Log P)} {s : System P}
    (hrun : Run (network P) (System.start peers) tr s)
    (hfits : StepsMeet (network P) (fun s l => s.fits dumpFloat l) (System.start peers) tr) :
    ∃ tr' t, Run (textNetwork dumpFloat strtod) (TextSystem.start peers) tr' t ∧
      Writes dumpFloat t s ∧ List.Forall₂ (fun e' e =>
        e'.1 = e.1.inBytes up down ∧ SentAlike dumpFloat e'.2 e.2) tr' tr := by
  refine hrun.invariant_of (fun s l => s.fits dumpFloat l) (fun tr s => ∃ tr' t,
    Run (textNetwork dumpFloat strtod) (TextSystem.start peers) tr' t ∧
      Writes dumpFloat t s ∧ List.Forall₂ (fun e' e =>
        e'.1 = e.1.inBytes up down ∧ SentAlike dumpFloat e'.2 e.2) tr' tr)
    ⟨[], _, .start, writes_start dumpFloat peers, .nil⟩ ?_ hfits
  intro tr s l s' o _ hreached hfit hstep
  obtain ⟨tr', t, hrun', hwrites, hsame⟩ := hreached
  obtain ⟨o', t', hstep', hwrites', hsent⟩ := hwrites.step_realised hformat up down hfit hstep
  exact ⟨tr' ++ [(l.inBytes up down, o')], t', .snoc hrun' hstep', hwrites',
    List.rel_append hsame (.cons ⟨rfl, hsent⟩ .nil)⟩

/-- Peer 2 has the lamp that peer 1 finds. -/
def lampBought : List (Move Int) :=
  [.user peer1 (.registerWithServer "127.0.0.1") true, .serve 0, .deliver 0 true,
   .user peer2 (.registerWithServer "127.0.0.1") true, .serve 0, .deliver 0 true,
   .user peer2 (.addItem "lamp" "old" 8) true, .user peer1 (.searchItem "lamp" "old" 10) true,
   .serve 0, .deliver 0 true, .serve 0, .tick 60000000000, .timeout 0, .deliver 0 true]

theorem messages_realised_bought : ∃ tr' t,
    Run (textNetwork dumpWhole strtodWhole) (TextSystem.start household) tr' t ∧
      tr'.map Prod.fst =
        lampBought.map (·.inBytes (Vector.replicate 1024 7) (Vector.replicate 4096 7)) ∧
      (t.clients peer1).currentState = .registered := by
  have hexec : ((network Int).exec (System.start household) lampBought).map
      (fun r => (r.1.clients peer1).currentState) = some .registered := by decide +kernel
  have hmeets : (network Int).execMeets (fun s l => s.fits dumpWhole l) (System.start household)
      lampBought = true := by decide +kernel
  obtain ⟨⟨s, tr⟩, hexec, hstate⟩ := Option.map_eq_some_iff.mp hexec
  obtain ⟨tr', t, hrun, hwrites, hsame⟩ := messages_realised whole_format
    (Vector.replicate 1024 7) (Vector.replicate 4096 7) (Machine.exec_run hexec)
    (Machine.exec_stepsMeet hexec hmeets)
  refine ⟨tr', t, hrun, ?_, by rw [hwrites.clients]; exact hstate⟩
  rw [← Machine.exec_labels hexec, List.map_map]
  exact List.forall₂_eq_eq_eq ▸ (List.forall₂_map_left_iff.mpr (List.forall₂_map_right_iff.mpr
    (hsame.imp fun e' e h => h.1)))

end P2PShopping
