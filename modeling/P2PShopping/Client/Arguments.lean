import P2PShopping.Client.Client
import P2PShopping.Library.Numerals

/-! `parseCommandLine`.

Each port is narrowed to 16 bits before it is checked, so the check sees a residue:
an argument of 65537 passes as port 1. The UDP port is compared with the TCP port
and otherwise not checked. What is accepted is therefore decided modulo 2^16, and the
arguments are validated as they were typed unless some integer outside the range of
ports has a residue that passes (`validated_iff`). -/
namespace P2PShopping
open Numerals

/-- `P2PClient::ClientConfig` with the fields that only the socket calls read. -/
structure CommandLineConfig extends ClientConfig where
  serverIp : String
  serverPort : UInt16

/-- `static_cast<uint16_t>`. -/
def toPort (n : Int) : UInt16 := UInt16.ofNat (n % 65536).toNat

/-- Both exceptions of `std::stoi` have the name of the function as their text. -/
def parsePort (argument : String) : Except String UInt16 :=
  match stoi argument.toList with
  | .ok n => .ok (toPort n)
  | .error _ => .error "stoi"

/-- The `try` block of `parseCommandLine`. -/
def readArguments (name serverIp serverPort udpPort tcpPort : String) :
    Except String CommandLineConfig :=
  match parsePort serverPort with
  | .error what => .error what
  | .ok serverPort =>
    match parsePort udpPort with
    | .error what => .error what
    | .ok udpPort =>
      match parsePort tcpPort with
      | .error what => .error what
      | .ok tcpPort =>
        if serverPort.toNat ≤ 0 ∨ serverPort.toNat > 65535 ∨
            tcpPort.toNat ≤ 0 ∨ tcpPort.toNat > 65535 then
          .error "Port numbers must be between 1 and 65535"
        else if tcpPort = udpPort then .error "TCP and UDP ports must be different"
        else .ok {name, udpPort, tcpPort, serverIp, serverPort}

/-- An error is the text of the `std::runtime_error` that is thrown. -/
def parseCommandLine : List String → Except String CommandLineConfig
  | [_, name, serverIp, serverPort, udpPort, tcpPort] =>
    match readArguments name serverIp serverPort udpPort tcpPort with
    | .ok config => .ok config
    | .error what => .error ("Error parsing arguments: " ++ what)
  | _ => .error "Invalid number of arguments"

/-! ### What is typed and what is accepted -/

/-- `stoi` reads these integers from the three port arguments. -/
def Typed (serverPort udpPort tcpPort : String) (s u t : Int) : Prop :=
  stoi serverPort.toList = .ok s ∧ stoi udpPort.toList = .ok u ∧ stoi tcpPort.toList = .ok t

/-- The range of ports. -/
def InRange (n : Int) : Prop := 1 ≤ n ∧ n ≤ 65535

/-- A configuration is returned iff the integers typed are ports and the two of the
client differ, and then it has these integers. -/
structure Validated (program name serverIp serverPort udpPort tcpPort : String) : Prop where
  accepts : (∃ config,
      parseCommandLine [program, name, serverIp, serverPort, udpPort, tcpPort] = .ok config) ↔
    ∃ s u t, Typed serverPort udpPort tcpPort s u t ∧
      InRange s ∧ InRange u ∧ InRange t ∧ t ≠ u
  keeps : ∀ config s u t,
    parseCommandLine [program, name, serverIp, serverPort, udpPort, tcpPort] = .ok config →
    Typed serverPort udpPort tcpPort s u t →
    config.serverPort.toNat = s ∧ config.udpPort.toNat = u ∧ config.tcpPort.toNat = t

theorem toNat_toPort (n : Int) : ((toPort n).toNat : Int) = n % 65536 := by
  have hpos := Int.emod_nonneg n (show (65536 : Int) ≠ 0 by decide)
  have hlt := Int.emod_lt_of_pos n (show (0 : Int) < 65536 by decide)
  have hsize : (n % 65536).toNat < UInt16.size := by
    change (n % 65536).toNat < 65536
    omega
  rw [toPort, UInt16.toNat_ofNat_of_lt' hsize, Int.toNat_of_nonneg hpos]

/-- The range check on a port that has been narrowed. -/
theorem toPort_out_of_range (n : Int) :
    ((toPort n).toNat ≤ 0 ∨ (toPort n).toNat > 65535) ↔ (65536 : Int) ∣ n := by
  have hnat := toNat_toPort n
  have hlt := (toPort n).toNat_lt
  rw [Int.dvd_iff_emod_eq_zero]
  omega

theorem toPort_inj {m n : Int} : toPort m = toPort n ↔ (65536 : Int) ∣ m - n := by
  rw [← UInt16.toNat_inj, Int.dvd_iff_emod_eq_zero, ← Int.emod_eq_emod_iff_emod_sub_eq_zero,
    ← toNat_toPort, ← toNat_toPort]
  exact Int.natCast_inj.symm

theorem toNat_toPort_of_range {n : Int} (h : InRange n) : ((toPort n).toNat : Int) = n := by
  have hrange := h
  rw [InRange] at hrange
  rw [toNat_toPort, Int.emod_eq_of_lt (by omega) (by omega)]

section Accept
variable {program name serverIp serverPort udpPort tcpPort : String} {s u t : Int}

/-- **What is accepted is decided by residues**, and so is what comes of it. -/
theorem parseCommandLine_typed (program name serverIp : String)
    (h : Typed serverPort udpPort tcpPort s u t) :
    parseCommandLine [program, name, serverIp, serverPort, udpPort, tcpPort] =
      if 65536 ∣ s ∨ 65536 ∣ t then
        .error "Error parsing arguments: Port numbers must be between 1 and 65535"
      else if 65536 ∣ t - u then
        .error "Error parsing arguments: TCP and UDP ports must be different"
      else .ok {name, udpPort := toPort u, tcpPort := toPort t, serverIp,
                serverPort := toPort s} := by
  obtain ⟨hs, hu, ht⟩ := h
  have hrange : ((toPort s).toNat ≤ 0 ∨ (toPort s).toNat > 65535 ∨
      (toPort t).toNat ≤ 0 ∨ (toPort t).toNat > 65535) ↔ (65536 ∣ s ∨ 65536 ∣ t) := by
    rw [← toPort_out_of_range s, ← toPort_out_of_range t, or_assoc]
  simp only [parseCommandLine, readArguments, parsePort, hs, hu, ht, hrange, toPort_inj]
  by_cases hports : 65536 ∣ s ∨ 65536 ∣ t
  · simp only [if_pos hports]
    rfl
  · by_cases hsame : 65536 ∣ t - u
    · simp only [if_neg hports, if_pos hsame]
      rfl
    · simp only [if_neg hports, if_neg hsame]

/-- Without three integers nothing is accepted. -/
theorem parseCommandLine_untyped (h : ∀ s u t, ¬ Typed serverPort udpPort tcpPort s u t) :
    parseCommandLine [program, name, serverIp, serverPort, udpPort, tcpPort] =
      .error "Error parsing arguments: stoi" := by
  simp only [parseCommandLine, readArguments, parsePort]
  cases hs : stoi serverPort.toList with
  | error e => rfl
  | ok s =>
    cases hu : stoi udpPort.toList with
    | error e => rfl
    | ok u =>
      cases ht : stoi tcpPort.toList with
      | error e => rfl
      | ok t => exact absurd ⟨hs, hu, ht⟩ (h s u t)

theorem Typed.unique {s' u' t' : Int} (h : Typed serverPort udpPort tcpPort s u t)
    (h' : Typed serverPort udpPort tcpPort s' u' t') : s = s' ∧ u = u' ∧ t = t' := by
  obtain ⟨hs, hu, ht⟩ := h
  obtain ⟨hs', hu', ht'⟩ := h'
  rw [hs] at hs'
  rw [hu] at hu'
  rw [ht] at ht'
  exact ⟨Except.ok.inj hs', Except.ok.inj hu', Except.ok.inj ht'⟩

/-- Three ports, the client's two of them different, are accepted as they are. -/
theorem parseCommandLine_ports (h : Typed serverPort udpPort tcpPort s u t) (hs : InRange s)
    (hu : InRange u) (ht : InRange t) (hne : t ≠ u) :
    parseCommandLine [program, name, serverIp, serverPort, udpPort, tcpPort] =
      .ok {name, udpPort := toPort u, tcpPort := toPort t, serverIp, serverPort := toPort s} := by
  rw [InRange] at hs hu ht
  rw [parseCommandLine_typed _ _ _ h, if_neg (by omega), if_neg (by omega)]

/-- What is accepted has residues that pass. -/
theorem residues_of_accepted {config : CommandLineConfig}
    (h : Typed serverPort udpPort tcpPort s u t)
    (hparse : parseCommandLine [program, name, serverIp, serverPort, udpPort, tcpPort] =
      .ok config) : ¬ (65536 ∣ s ∨ 65536 ∣ t ∨ 65536 ∣ t - u) := by
  rw [parseCommandLine_typed _ _ _ h] at hparse
  split at hparse
  · cases hparse
  · split at hparse
    · cases hparse
    · simp_all

/-- **The ports are validated as typed iff every triple of integers that is typed
lies in the range of ports, or has a residue that is refused.** -/
theorem validated_iff :
    Validated program name serverIp serverPort udpPort tcpPort ↔
      ∀ s u t, Typed serverPort udpPort tcpPort s u t →
        (InRange s ∧ InRange u ∧ InRange t) ∨ 65536 ∣ s ∨ 65536 ∣ t ∨ 65536 ∣ t - u := by
  constructor
  · intro hvalid s u t h
    by_contra hbad
    simp only [not_or, not_and] at hbad
    obtain ⟨hrange, hs, ht, hsame⟩ := hbad
    -- The residues pass, so a configuration is returned, and the integers are ports after all.
    have hparse := parseCommandLine_typed program name serverIp h
    rw [if_neg (not_or.mpr ⟨hs, ht⟩), if_neg hsame] at hparse
    obtain ⟨s', u', t', h', hs', hu', ht', -⟩ := hvalid.accepts.mp ⟨_, hparse⟩
    obtain ⟨rfl, rfl, rfl⟩ := h.unique h'
    exact hrange hs' hu' ht'
  · intro hresidues
    have hrange : ∀ {config s u t}, Typed serverPort udpPort tcpPort s u t →
        parseCommandLine [program, name, serverIp, serverPort, udpPort, tcpPort] = .ok config →
        InRange s ∧ InRange u ∧ InRange t ∧ t ≠ u := by
      intro config s u t h hparse
      have hpass := residues_of_accepted h hparse
      obtain ⟨hs, hu, ht⟩ := (hresidues s u t h).resolve_right hpass
      refine ⟨hs, hu, ht, fun hsame => hpass (.inr (.inr ?_))⟩
      simp [hsame]
    refine ⟨⟨fun hreturned => ?_, fun hports => ?_⟩, fun config s u t hparse h => ?_⟩
    · obtain ⟨config, hparse⟩ := hreturned
      by_cases htyped : ∃ s u t, Typed serverPort udpPort tcpPort s u t
      · obtain ⟨s, u, t, h⟩ := htyped
        exact ⟨s, u, t, h, hrange h hparse⟩
      · rw [parseCommandLine_untyped fun s u t h => htyped ⟨s, u, t, h⟩] at hparse
        cases hparse
    · obtain ⟨s, u, t, h, hs, hu, ht, hne⟩ := hports
      exact ⟨_, parseCommandLine_ports h hs hu ht hne⟩
    · obtain ⟨hs, hu, ht, hne⟩ := hrange h hparse
      rw [parseCommandLine_ports h hs hu ht hne] at hparse
      cases hparse
      exact ⟨toNat_toPort_of_range hs, toNat_toPort_of_range hu, toNat_toPort_of_range ht⟩

end Accept

/-- 65537 is accepted as port 1. -/
theorem wide_port_accepted :
    ¬ Validated "client" "peer1" "127.0.0.1" "65537" "5001" "6001" := by
  intro hvalid
  have htyped : Typed "65537" "5001" "6001" 65537 5001 6001 := ⟨rfl, rfl, rfl⟩
  have hparse := parseCommandLine_typed "client" "peer1" "127.0.0.1" htyped
  rw [if_neg (by decide), if_neg (by decide)] at hparse
  obtain ⟨s, u, t, h, hs, -⟩ := hvalid.accepts.mp ⟨_, hparse⟩
  obtain ⟨rfl, -, -⟩ := htyped.unique h
  exact absurd hs.2 (by decide)

end P2PShopping
