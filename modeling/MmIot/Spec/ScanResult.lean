import MmIot.Spec.WifiMgmt

/-! `scan_callback` of `wifi_mgmt.c`: from a scan result of mmwlan to the one that the
application's callback is handed. -/

namespace MmIot

/-- The longest SSID; Zephyr's buffers have a byte more. -/
def WIFI_SSID_MAX_LEN : ℕ := 32

def RSN_PARSE_ERR : ℤ := -2

def RSN_NOT_FOUND : ℤ := -1

def RSN_MFPR : UInt16 := (1 : UInt16) <<< 6

def RSN_MFPC : UInt16 := (1 : UInt16) <<< 7

/-- `enum mm_akm_suite`, and values it does not list. -/
inductive AkmSuite where
  | none | psk | owe | sae | other
  | unlisted (value : ℕ)

/-- `struct mm_rsn_information`; the length of the list is `num_akm_suites`. -/
structure RsnInformation where
  rsnCapabilities : UInt16
  akmSuites : List AkmSuite

/-- What morselib's parsers return, a code and the structure they fill in. -/
structure ElementParsers where
  s1gOperation : List UInt8 → ℤ × UInt8
  rsnInformation : List UInt8 → ℤ × RsnInformation

/-- `struct mmwlan_scan_result`; a byte list carries its length. -/
structure MmwlanScanResult where
  ssid : List UInt8
  bssid : List UInt8
  rssi : Int16
  ies : List UInt8

/-- The security types that a scan reports. -/
inductive ScanSecurity where
  | none | psk | sae
  deriving DecidableEq

/-- The numbers of `enum wifi_security_type`. -/
def ScanSecurity.toNat : ScanSecurity → ℕ
  | .none => 0
  | .psk => 1
  | .sae => 3

/-- `MAX` -/
def ScanSecurity.max (a b : ScanSecurity) : ScanSecurity := if b.toNat < a.toNat then a else b

inductive WifiFreqBand where
  | sub1Ghz | unknown
  deriving DecidableEq

/-- `struct wifi_scan_result` -/
structure WifiScanResult where
  ssid : List UInt8
  ssidLength : ℕ
  band : WifiFreqBand
  channel : UInt8
  security : ScanSecurity
  mfp : WifiMfp
  rssi : Int8
  mac : List UInt8
  macLength : ℕ

def WIFI_MAC_ADDR_LEN : ℕ := 6

/-- What a suite counts as; there is no type for OWE. -/
def AkmSuite.security : AkmSuite → ScanSecurity
  | .none => .none
  | .psk => .psk
  | .sae => .sae
  | .owe => .sae
  | .other => .sae
  | .unlisted _ => .sae

/-- The loop over the suites. -/
def akmSecurity (suites : List AkmSuite) : ScanSecurity :=
  suites.foldl (fun security suite => security.max suite.security) .none

/-- `scan.mfp`, in a structure cleared before. -/
def rsnMfp (capabilities : UInt16) : WifiMfp :=
  if capabilities &&& RSN_MFPC ≠ 0 then
    if capabilities &&& RSN_MFPR ≠ 0 then .required else .optional
  else .disable

/-- What is handed to `scan_cb`, if it is called. -/
def scanCallback (parsers : ElementParsers) (channelList : Option ChannelList)
    (result : MmwlanScanResult) : Option WifiScanResult :=
  if channelList = none then none
  else
    let ssidLength :=
      if result.ssid.length < WIFI_SSID_MAX_LEN - 1 then result.ssid.length
      else WIFI_SSID_MAX_LEN - 1
    let ssid := memcpy (List.replicate (WIFI_SSID_MAX_LEN + 1) 0) result.ssid ssidLength
    let (ret, primaryChannelNumber) := parsers.s1gOperation result.ies
    if ret ≠ 0 then none
    else
      let (ret, rsnInfo) := parsers.rsnInformation result.ies
      if ret = RSN_PARSE_ERR then none
      else some {
        ssid := ssid.set (WIFI_SSID_MAX_LEN - 1) 0
        ssidLength
        band := .unknown
        channel := primaryChannelNumber
        security :=
          if ret = RSN_NOT_FOUND ∨ rsnInfo.akmSuites.length = 0 then .none
          else akmSecurity rsnInfo.akmSuites
        mfp := rsnMfp rsnInfo.rsnCapabilities
        rssi := result.rssi.toInt8
        mac := result.bssid.take WIFI_MAC_ADDR_LEN
        macLength := WIFI_MAC_ADDR_LEN }

end MmIot
