import RT7.Base.Python
import RT7.Base.Bytes
import RT7.Base.Utf16
import RT7.Base.Crc32
import RT7.Base.Burst
import RT7.Base.Text
import RT7.Base.Utf8
import RT7.Base.Path
import RT7.Base.Casing
import RT7.Base.Realpath
import RT7.Base.Pairs
import RT7.Base.Objects
import RT7.Base.Trace
import RT7.Base.Blocks
import RT7.Gpt.Header
import RT7.Gpt.Entries
import RT7.Gpt.Pair
import RT7.Gpt.Layout
import RT7.Gpt.Mirror
import RT7.Gpt.Flash
import RT7.Gpt.StorageMap
import RT7.Gpt.Slots
import RT7.Gpt.Bounds
import RT7.Gpt.Corruption
import RT7.Capture.Table
import RT7.Capture.Plan
import RT7.Capture.Resolve
import RT7.Capture.Image
import RT7.Capture.Validate
import RT7.Copy.Path
import RT7.Copy.Manifest
import RT7.Copy.Verify
import RT7.Copy.Accept
import RT7.Copy.Complete
import RT7.Copy.Transfer
import RT7.Copy.Agree
import RT7.Copy.Publish
import RT7.Usb.WaitBind
import RT7.Usb.Safety
import RT7.Usb.Validated
import RT7.Boot.Arguments
import RT7.Boot.Publish
import RT7.Boot.Tools
import RT7.Boot.Build
import RT7.Boot.Contents
import RT7.Boot.Registry
import RT7.Boot.Scenario
import RT7.Boot.Verify
import RT7.Boot.Promise
import RT7.Boot.Accept
import RT7.Boot.RoundTrip
import RT7.Base.Killed
import RT7.Base.PowerShell
import RT7.Recovery.Restart
import RT7.Kernel.Series
import RT7.Kernel.Prepared
import RT7.Usb.Handshake
import RT7.Usb.Fastboot
import RT7.Kernel.MobyCheck
import RT7.Kernel.BootTools
import RT7.Recovery.Services
import RT7.Recovery.Deployed
import RT7.Kernel.Artifacts
import RT7.Capture.Tablet
import RT7.Capture.Client
import RT7.Capture.Execute
import RT7.Copy.Rollback
import RT7.Recovery.Ramdisk
import RT7.Recovery.Image
