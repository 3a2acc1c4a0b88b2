import StationLink.Text.Basic

/-!
# Marks of the answer lines

The beginnings by which answer lines are told apart, and the two words for the security of a
network.
-/

namespace StationLink.Protocol.Mark

def error : Text := "ERROR".toList

def status : Text := "STATUS:".toList

def ssid : Text := "SSID:".toList

def ip : Text := "IP:".toList

def rssi : Text := "RSSI:".toList

def network : Text := "NETWORK:".toList

def tcpData : Text := "TCPDATA:".toList

def connected : Text := "CONNECTED".toList

def disconnected : Text := "DISCONNECTED".toList

def secured : Text := "SECURED".toList

def unsecured : Text := "OPEN".toList

end StationLink.Protocol.Mark
