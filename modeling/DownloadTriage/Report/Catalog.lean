import DownloadTriage.Json.Basic
import DownloadTriage.Report.Basic

/-!
# The display catalog

The tables from which displayed evidence is taken. A dashboard refers to entries by their place, so
their order is fixed.
-/

namespace DownloadTriage.Catalog

/-- The vendors. -/
def vendors : List Vendor :=
  [⟨"Google", "fab fa-google"⟩, ⟨"VirusTotal", "fas fa-shield-virus"⟩,
    ⟨"Microsoft", "fab fa-windows"⟩, ⟨"CrowdStrike", "fas fa-crow"⟩,
    ⟨"SentinelOne", "fas fa-satellite-dish"⟩, ⟨"Palo Alto Networks", "fas fa-fire-wall"⟩,
    ⟨"McAfee", "fas fa-shield-alt"⟩, ⟨"Symantec (Broadcom)", "fas fa-shield-alt"⟩,
    ⟨"Kaspersky", "fas fa-shield-alt"⟩, ⟨"ESET", "fas fa-shield-alt"⟩,
    ⟨"Malwarebytes", "fas fa-shield-alt"⟩, ⟨"Sophos", "fas fa-shield-alt"⟩,
    ⟨"Trend Micro", "fas fa-shield-alt"⟩, ⟨"FireEye (Trellix)", "fas fa-fire"⟩,
    ⟨"Zscaler", "fas fa-cloud"⟩, ⟨"Cisco Talos", "fas fa-shield-alt"⟩,
    ⟨"Avast", "fas fa-shield-alt"⟩, ⟨"Bitdefender", "fas fa-shield-alt"⟩,
    ⟨"Fortinet", "fas fa-fort-awesome"⟩, ⟨"Check Point", "fas fa-shield-alt"⟩]

/-- The vendor shown where no place of the table is meant. -/
def houseVendor : Vendor := ⟨"Cisco Talos", "fas fa-shield-alt"⟩

/-- The vendor at a place. -/
def vendor (place : Nat) : Vendor := vendors.getD place houseVendor

/-- The states of a signature. -/
def signatures : List Signature :=
  [⟨"Verified (Microsoft Corporation)", "fas fa-check-shield", "verified"⟩,
    ⟨"Verified (Google LLC)", "fas fa-check-shield", "verified"⟩,
    ⟨"Verified (Notepad++ team)", "fas fa-check-shield", "verified"⟩,
    ⟨"Verified (Unknown Publisher)", "fas fa-exclamation-triangle", "unknown"⟩,
    ⟨"Not Signed", "fas fa-times-circle", "untrusted"⟩,
    ⟨"Expired Certificate", "fas fa-exclamation-triangle", "untrusted"⟩,
    ⟨"Self-Signed (Untrusted)", "fas fa-times-circle", "untrusted"⟩]

/-- The state of a file without a signature. -/
def notSigned : Signature := ⟨"Not Signed", "fas fa-times-circle", "untrusted"⟩

/-- The signature at a place. -/
def signature (place : Nat) : Signature := signatures.getD place notSigned

/-- The types of file. -/
def fileTypes : List String :=
  ["PE32+ (GUI) x86-64", "PE32 (Console) Intel 80386", "PE32+ DLL x86-64", "MSI Installer",
    "PDF Document", "ELF 64-bit LSB executable", "Mach-O 64-bit executable x86_64"]

/-- The packers. -/
def packers : List String :=
  ["None", "UPX", "VMProtect", "Themida", "ASPack", "Unknown (High Entropy)"]

/-- The families of malware. -/
def families : List String :=
  ["Trojan.Downloader.Win32", "Masquerader.Win32.Agent", "Ransomware.Win32.Locky",
    "Worm.Win32.Autorun", "Spyware.Win32.Keylogger", "Backdoor.Win32.Gh0st", "PUA.Win32.Adware",
    "Dropper.Win32.Emotet"]

/-- The sets of imported functions: three of benign files, four of suspicious ones, four of
malware. -/
def importSets : List (List String) :=
  [["ReadFile", "WriteFile", "CloseHandle"], ["CreateFileW", "HeapAlloc", "HeapFree"],
    ["Socket", "Connect", "Send", "Recv"], ["SetWindowsHookExW", "GetMessageW"],
    ["WriteProcessMemory", "ReadProcessMemory", "OpenProcess"],
    ["URLDownloadToFileW", "WinExec"], ["RegSetValueExW", "CopyFileW", "SetFileAttributesW"],
    ["CreateRemoteThread", "VirtualAllocEx", "WriteProcessMemory"],
    ["CryptGenKey", "CryptEncrypt", "DeleteFileW"],
    ["NtInjectThread", "OpenProcess", "VirtualAllocEx"],
    ["Socket", "URLDownloadToFileW", "CreateRemoteThread", "WinExec"]]

/-- Strings found in files that are not benign. -/
def suspiciousStrings : List String :=
  ["http://bad-c2-server.com/payload.dat", "/temp/vbc.exe", "keylog.txt", "steal_passwords",
    ".locked", "HOW_TO_DECRYPT.txt", "vssadmin.exe delete shadows", "RSA-2048", "autorun.inf",
    "[autorun]", "open=update.exe", "powershell -enc", "IEX", "crack", "patch",
    "disable_antivirus", "Embedded EXE", "CustomAction", "RunPowerShellScript", "bot_id=",
    "GetProcAddress", "LoadLibraryA"]

/-- Strings found in benign files. -/
def benignStrings : List String :=
  ["Microsoft Visual C++ Redistributable", "Notepad++", "Scintilla", "Calculator", "CreateFileW",
    "WriteFile", "ReadFile", "Windows Sockets 2.0 32-bit"]

/-- The sections of which an entropy is shown. -/
def sectionNames : List String := [".text", ".data", ".rsrc", "UPX0", "UPX1", ".reloc"]

/-- The tables by name, as documents. -/
def tables : List (String × Json) :=
  [("vendors", .arr (vendors.map fun x => .strs [x.name, x.icon])),
    ("signatures", .arr (signatures.map fun x => .strs [x.name, x.icon, x.level])),
    ("file_types", .strs fileTypes), ("packers", .strs packers), ("families", .strs families),
    ("api_sets", .arr (importSets.map Json.strs)),
    ("suspicious_strings", .strs suspiciousStrings), ("benign_strings", .strs benignStrings),
    ("entropy_sections", .strs sectionNames)]

end DownloadTriage.Catalog
